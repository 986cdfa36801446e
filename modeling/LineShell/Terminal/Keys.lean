/-
Module: LineShell.Terminal.Keys
Purpose: Keys as a terminal sends them, and how a stretch of terminal input is
  cut into input events.
Main exports: Key, Key.ofText?, splitKeys
-/
import LineShell.Terminal.Escape

namespace LineShell

/-- Cuts terminal input into events: a control sequence is one event, any other
character is one.  A sequence whose final character has not come yet is an event
as far as it goes. -/
def splitKeys : Text → List Text
  | [] => []
  | '\x1b' :: '[' :: rest =>
      let body := rest.takeWhile (!isFinal ·)
      match _cut : rest.dropWhile (!isFinal ·) with
      | [] => [escape :: '[' :: body]
      | final :: behind => (escape :: '[' :: body ++ [final]) :: splitKeys behind
  | c :: rest => [c] :: splitKeys rest
termination_by text => text.length
decreasing_by
  · have shorter := (List.dropWhile_sublist (l := rest) (!isFinal ·)).length_le
    rw [_cut] at shorter
    simp only [List.length_cons] at shorter ⊢
    omega
  · simp only [List.length_cons]
    omega

/-- The events that do more than insert themselves. -/
inductive Key where
  | submit
  | escape
  | backspace
  | left
  | right
  | up
  | down
  | delete
  | home
  | last
  | doubleQuote
  | singleQuote
deriving DecidableEq, Repr, Inhabited

/-- What each key sends. -/
def Key.ofText? (event : Text) : Option Key :=
  if event = ['\r'] ∨ event = ['\n'] then some .submit
  else if event = ['\x1b'] then some .escape
  else if event = ['\x7f'] then some .backspace
  else if event = controlSequence ['D'] then some .left
  else if event = controlSequence ['C'] then some .right
  else if event = controlSequence ['A'] then some .up
  else if event = controlSequence ['B'] then some .down
  else if event = controlSequence ['3', '~'] then some .delete
  else if event = controlSequence ['H'] then some .home
  else if event = controlSequence ['F'] then some .last
  else if event = ['"'] then some .doubleQuote
  else if event = ['\x27'] then some .singleQuote
  else none

end LineShell

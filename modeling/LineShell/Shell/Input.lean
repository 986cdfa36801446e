/-
Module: LineShell.Shell.Input
Purpose: What an input event does to a shell.
Main exports: Shell.press, Shell.typed, Shell.showAnew, Shell.input
-/
import LineShell.Shell.Submit
import LineShell.Terminal.Keys

namespace LineShell.Shell

/-- Changes the line being typed. -/
def edit (shell : Shell) (change : Buffer → Buffer) : Shell :=
  { shell with buffer := change shell.buffer }

/-- One place to the right; at the end of the line the suggestion is taken over. -/
def moveRightOrAccept (shell : Shell) : Shell :=
  if shell.buffer.cursor < shell.buffer.length then shell.edit Buffer.moveRight
  else
    match shell.suggestion with
    | none => shell
    | some rest => { shell.edit (·.insert rest) with suggestion := none }

/-- Shows the earlier line that browsing has come to. -/
def historyUp (shell : Shell) : Shell :=
  let history := shell.history.up
  { shell with
    history := history
    buffer :=
      match history.current with
      | some line => Buffer.ofText line
      | none => shell.buffer }

/-- Shows the later line that browsing has come to, or none. -/
def historyDown (shell : Shell) : Shell :=
  let history := shell.history.down
  { shell with
    history := history
    buffer :=
      match history.current with
      | some line => Buffer.ofText line
      | none => Buffer.empty }

/-- The effect of a key. -/
def press (shell : Shell) (scheduled : Bool) : Key → Reaction × Shell
  | .submit => shell.submit scheduled
  | .escape => (.done, shell)
  | .backspace => (.done, shell.edit Buffer.deleteLeft)
  | .left => (.done, shell.edit Buffer.moveLeft)
  | .right => (.done, shell.moveRightOrAccept)
  | .up => (.done, shell.historyUp)
  | .down => (.done, shell.historyDown)
  | .delete => (.done, shell.edit Buffer.deleteRight)
  | .home => (.done, shell.edit Buffer.moveToStart)
  | .last => (.done, shell.edit Buffer.moveToEnd)
  | .doubleQuote => (.done, shell.edit (·.insertPair ['"', '"']))
  | .singleQuote => (.done, shell.edit (·.insertPair ['\x27', '\x27']))

/-- What an input event leads to when it is not ignored, before the line is shown anew. -/
def typed (shell : Shell) (scheduled : Bool) (event : Text) : Reaction × Shell :=
  match Key.ofText? event with
  | some key => shell.press scheduled key
  | none => (.done, if event.isEmpty then shell else shell.edit (·.insert event))

/-- Shows the line anew where a shell is idle and no failure has been raised. -/
def showAnew (result : Reaction × Shell) : Reaction × Shell :=
  match result.1, result.2.activity with
  | .raised _, _ | _, .running => result
  | _, .idle => (result.1, result.2.repaint)

/-- One input event: a key, or text to insert.  It is ignored while a program runs. -/
def input (shell : Shell) (scheduled : Bool) (event : Text) : Reaction × Shell :=
  match shell.activity with
  | .running => (.done, shell)
  | .idle => showAnew (shell.typed scheduled event)

end LineShell.Shell

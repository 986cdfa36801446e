/-
Module: LineShell.Syntax.Reader
Purpose: The state of reading and the primitive steps on it.  A reading rule
  either yields a value and leaves the cursor behind what it consumed, or ends
  in a fault.
Main exports: Reader, Rule, peek, peekAt, advance, fail, expect, takeWhile,
  skipBlanks, attempt, restoring, firstOf
-/
import LineShell.Syntax.Error
import LineShell.Text.Blank

namespace LineShell

/-- What is left to read, the place of the cursor, and the syntax error with the
greatest index met so far.  Of two errors at one index the later one is kept. -/
structure Reader where
  rest : Text
  position : Position := {}
  furthest : Option SyntaxError := none
deriving DecidableEq, Repr, Inhabited

/-- Going back to an earlier cursor keeps the memory of the furthest error. -/
instance : EStateM.Backtrackable (Text × Position) Reader where
  save reader := (reader.rest, reader.position)
  restore reader cursor := { reader with rest := cursor.1, position := cursor.2 }

/-- A rule reads from the cursor on. -/
abbrev Rule := EStateM ReadFault Reader

namespace Reader

/-- The cursor before the first character. -/
def start (text : Text) : Reader :=
  { rest := text }

/-- The reader behind one more character. -/
def pop (reader : Reader) (c : Char) (rest : Text) : Reader :=
  { reader with rest := rest, position := reader.position.advance c }

/-- The memory of the furthest error, with one more error met. -/
def noteError (reader : Reader) (error : SyntaxError) : Reader :=
  match reader.furthest with
  | none => { reader with furthest := some error }
  | some known =>
      if known.position.index ≤ error.position.index then
        { reader with furthest := some error }
      else reader

end Reader

/-! ### Looking and stepping -/

/-- The character at the cursor. -/
def peek : Rule (Option Char) :=
  return (← get).rest.head?

/-- The character `offset` places behind the cursor. -/
def peekAt (offset : Nat) : Rule (Option Char) :=
  return (← get).rest[offset]?

/-- Whether everything has been read. -/
def atEnd : Rule Bool :=
  return (← get).rest.isEmpty

/-- The place of the cursor. -/
def here : Rule Position :=
  return (← get).position

/-- Takes the character at the cursor. -/
def advance : Rule Char := do
  let reader ← get
  match reader.rest with
  | [] => throw .pastEnd
  | c :: rest =>
      set (reader.pop c rest)
      return c

/-- Gives up at the cursor, and remembers that it did. -/
def fail {α : Type} (expectation : Expectation) : Rule α := do
  let reader ← get
  let error : SyntaxError :=
    { position := reader.position
      found := reader.rest.head?
      expected := some expectation }
  set (reader.noteError error)
  throw (.malformed error)

/-- Takes one given character. -/
def expect (c : Char) : Rule Unit := do
  if (← peek) = some c then
    discard advance
  else
    fail (.char c)

/-- Takes the longest run of characters that pass the test. -/
def takeWhile (test : Char → Bool) : Rule Text :=
  modifyGet fun reader =>
    let run := reader.rest.takeWhile test
    (run, { reader with
            rest := reader.rest.dropWhile test
            position := reader.position.after run })

/-- Takes white space and tells how much it was. -/
def skipBlanks : Rule Nat :=
  return (← takeWhile isBlank).length

/-- The stretch from an earlier place to the cursor. -/
def spanFrom (start : Position) : Rule Span :=
  return { start := start, stop := (← here) }

/-! ### Backtracking -/

/-- Runs a rule, and goes back to where it started if it ends in a syntax error. -/
def restoring {α : Type} (rule : Rule α) : Rule α :=
  tryCatch rule throw

/-- Runs a rule; a syntax error counts as no result, with the cursor back where
the rule started. -/
def attempt {α : Type} (rule : Rule α) : Rule (Option α) :=
  tryCatch (some <$> rule) fun
    | .malformed _ => return none
    | .pastEnd => throw .pastEnd

/-- The first rule that succeeds decides.  If none does, the failure is that
`expectation` was not met. -/
def firstOf {α : Type} (expectation : Expectation) : List (Rule α) → Rule α
  | [] => fail expectation
  | rule :: others => do
      match ← attempt rule with
      | some value => return value
      | none => firstOf expectation others

end LineShell

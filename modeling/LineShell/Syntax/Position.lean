/-
Module: LineShell.Syntax.Position
Purpose: Places in a text and stretches between them.
Main exports: Position, Position.advance, Position.after, Position.label, Span
-/
import LineShell.Text.Basic

namespace LineShell

/-- A place between two characters of a text.  Lines and columns count from one,
the index is the number of characters before the place. -/
structure Position where
  line : Nat := 1
  column : Nat := 1
  index : Nat := 0
deriving DecidableEq, Repr, Inhabited

namespace Position

/-- The place behind one more character.  A line feed starts a line; no other
character does. -/
def advance (position : Position) (c : Char) : Position :=
  if c = '\n' then
    { line := position.line + 1, column := 1, index := position.index + 1 }
  else
    { position with column := position.column + 1, index := position.index + 1 }

/-- The place behind a whole piece of text. -/
def after (position : Position) (text : Text) : Position :=
  text.foldl advance position

/-- Line and column, as error messages name a place. -/
def label (position : Position) : Text :=
  Text.ofNat position.line ++ ':' :: Text.ofNat position.column

@[simp] theorem advance_index (position : Position) (c : Char) :
    (position.advance c).index = position.index + 1 := by
  unfold advance; split <;> rfl

@[simp] theorem after_nil (position : Position) : position.after [] = position := rfl

@[simp] theorem after_cons (position : Position) (c : Char) (text : Text) :
    position.after (c :: text) = (position.advance c).after text := rfl

theorem after_append (position : Position) (first second : Text) :
    position.after (first ++ second) = (position.after first).after second :=
  List.foldl_append

@[simp] theorem after_index (position : Position) (text : Text) :
    (position.after text).index = position.index + text.length := by
  induction text generalizing position with
  | nil => rfl
  | cons c rest ih => simp only [after_cons, ih, advance_index, List.length_cons]; omega

end Position

/-- The stretch of text from `start` up to, and not including, `stop`. -/
structure Span where
  start : Position
  stop : Position
deriving DecidableEq, Repr, Inhabited

end LineShell

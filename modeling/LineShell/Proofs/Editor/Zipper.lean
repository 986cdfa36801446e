/-
Module: LineShell.Proofs.Editor.Zipper
Purpose: The line being typed is a pair of texts, the one in front of the cursor and the one
  behind it, and every editing operation works where the two meet.
Main exports: Edit, Buffer.edit, Buffer.edits, Zipper, Zipper.Splits, Zipper.edit, Zipper.edits,
  Change, Change.Turns, Zipper.change, splits_edit, splits_edits, turns_change,
  edits_deleteLeft, edits_split_the_line
-/
import Mathlib.Data.List.Induction
import LineShell.Editor.Buffer

namespace LineShell

/-!
A line with a cursor in it is a line cut in two.  The operations on such a pair need no
positions: a text goes to the end of the left part or to the start of the right part, and one
character at the cut changes sides or is dropped.  What the buffer does with its offsets is
this, step by step, and so it is after any number of steps.
-/

/-- One operation on the line being typed. -/
inductive Edit where
  | insert (data : Text)
  | insertBehind (data : Text)
  | set (text : Text)
  | clear
  | moveLeft
  | moveRight
  | moveToStart
  | moveToEnd
  | deleteLeft
  | deleteRight
deriving DecidableEq, Repr

namespace Buffer

/-- The line after one operation. -/
def edit (buffer : Buffer) : Edit → Buffer
  | .insert data => buffer.insert data
  | .insertBehind data => buffer.insertBehind data
  | .set text => ofText text
  | .clear => empty
  | .moveLeft => buffer.moveLeft
  | .moveRight => buffer.moveRight
  | .moveToStart => buffer.moveToStart
  | .moveToEnd => buffer.moveToEnd
  | .deleteLeft => buffer.deleteLeft
  | .deleteRight => buffer.deleteRight

/-- The line after some operations, one after the other. -/
def edits (buffer : Buffer) (operations : List Edit) : Buffer :=
  operations.foldl edit buffer

end Buffer

/-! ### The line as a pair -/

/-- A line cut in two at the cursor. -/
structure Zipper where
  left : Text := []
  right : Text := []
deriving DecidableEq, Repr

namespace Zipper

/-- The pair is the text of the line, cut at its cursor. -/
structure Splits (zipper : Zipper) (line : Buffer) : Prop where
  text : line.text = zipper.left ++ zipper.right
  cursor : line.cursor = zipper.left.length

/-- One operation on the pair.  A move takes the character at the cut to the other side, a
deletion drops it, and both leave the pair alone where that side is empty. -/
def edit : Zipper → Edit → Zipper
  | ⟨left, right⟩, .insert data => ⟨left ++ data, right⟩
  | ⟨left, right⟩, .insertBehind data => ⟨left, data ++ right⟩
  | _, .set text => ⟨text, []⟩
  | _, .clear => ⟨[], []⟩
  | ⟨left, right⟩, .moveLeft =>
      match left.getLast? with
      | none => ⟨left, right⟩
      | some last => ⟨left.dropLast, last :: right⟩
  | ⟨left, right⟩, .moveRight =>
      match right with
      | [] => ⟨left, right⟩
      | next :: rest => ⟨left ++ [next], rest⟩
  | ⟨left, right⟩, .moveToStart => ⟨[], left ++ right⟩
  | ⟨left, right⟩, .moveToEnd => ⟨left ++ right, []⟩
  | ⟨left, right⟩, .deleteLeft => ⟨left.dropLast, right⟩
  | ⟨left, right⟩, .deleteRight => ⟨left, right.tail⟩

/-- The pair after some operations, one after the other. -/
def edits (zipper : Zipper) (operations : List Edit) : Zipper :=
  operations.foldl edit zipper

variable {zipper : Zipper} {line : Buffer}

theorem splits_empty : Splits {} Buffer.empty where
  text := by simp [Buffer.empty]
  cursor := by simp [Buffer.empty]

/-- The cursor stands in the line. -/
theorem Splits.cursor_le (splits : zipper.Splits line) : line.cursor ≤ line.text.length := by
  rw [splits.text, splits.cursor, List.length_append]
  exact Nat.le_add_right _ _

/-- What stands in front of the cursor is the left part. -/
theorem Splits.take (splits : zipper.Splits line) : line.text.take line.cursor = zipper.left := by
  rw [splits.text, splits.cursor, List.take_left]

/-- What stands behind the cursor is the right part. -/
theorem Splits.drop (splits : zipper.Splits line) : line.text.drop line.cursor = zipper.right := by
  rw [splits.text, splits.cursor, List.drop_left]

theorem Splits.insertBehind (splits : zipper.Splits line) (data : Text) :
    (zipper.edit (.insertBehind data)).Splits (line.insertBehind data) where
  text := by simp [edit, Buffer.insertBehind, splits.take, splits.drop]
  cursor := splits.cursor

theorem Splits.insert (splits : zipper.Splits line) (data : Text) :
    (zipper.edit (.insert data)).Splits (line.insert data) where
  text := by simp [edit, Buffer.insert, Buffer.insertBehind, splits.take, splits.drop]
  cursor := by simp [edit, Buffer.insert, splits.cursor]

theorem Splits.moveLeft (splits : zipper.Splits line) :
    (zipper.edit .moveLeft).Splits line.moveLeft := by
  obtain ⟨left, right⟩ := zipper
  rcases List.eq_nil_or_concat left with rfl | ⟨front, last, rfl⟩
  · exact ⟨splits.text, by simp [edit, Buffer.moveLeft, splits.cursor]⟩
  · constructor
    · simpa [edit, Buffer.moveLeft] using splits.text
    · simp [edit, Buffer.moveLeft, splits.cursor]

theorem Splits.moveRight (splits : zipper.Splits line) :
    (zipper.edit .moveRight).Splits line.moveRight := by
  obtain ⟨left, right⟩ := zipper
  cases right with
  | nil => simpa [edit, Buffer.moveRight, splits.text, splits.cursor] using splits
  | cons next rest =>
      have inside : line.cursor < line.text.length := by simp [splits.text, splits.cursor]
      rw [Buffer.moveRight, if_pos inside]
      constructor
      · simpa [edit] using splits.text
      · simp [edit, splits.cursor]

theorem Splits.deleteLeft (splits : zipper.Splits line) :
    (zipper.edit .deleteLeft).Splits line.deleteLeft := by
  obtain ⟨left, right⟩ := zipper
  rcases List.eq_nil_or_concat left with rfl | ⟨front, last, rfl⟩
  · simpa [edit, Buffer.deleteLeft, splits.cursor] using splits
  · have inside : 0 < line.cursor := by simp [splits.cursor]
    have kept : line.text.take (line.cursor - 1) = front := by simp [splits.text, splits.cursor]
    rw [Buffer.deleteLeft, if_pos inside]
    constructor
    · simp [edit, kept, splits.drop]
    · simp [edit, splits.cursor]

theorem Splits.deleteRight (splits : zipper.Splits line) :
    (zipper.edit .deleteRight).Splits line.deleteRight := by
  obtain ⟨left, right⟩ := zipper
  cases right with
  | nil => simpa [edit, Buffer.deleteRight, splits.text, splits.cursor] using splits
  | cons next rest =>
      have inside : line.cursor < line.text.length := by simp [splits.text, splits.cursor]
      have kept : line.text.drop (line.cursor + 1) = rest := by
        rw [← List.drop_drop, splits.drop, List.drop_one, List.tail_cons]
      rw [Buffer.deleteRight, if_pos inside]
      constructor
      · simp [edit, kept, splits.take]
      · exact splits.cursor

/-- Every operation on the line is that operation on the pair. -/
theorem splits_edit (splits : zipper.Splits line) (operation : Edit) :
    (zipper.edit operation).Splits (line.edit operation) := by
  cases operation with
  | insert data => exact splits.insert data
  | insertBehind data => exact splits.insertBehind data
  | set text => constructor <;> simp [edit, Buffer.edit, Buffer.ofText]
  | clear => exact splits_empty
  | moveLeft => exact splits.moveLeft
  | moveRight => exact splits.moveRight
  | moveToStart => exact ⟨splits.text, by simp [edit, Buffer.edit, Buffer.moveToStart]⟩
  | moveToEnd =>
      exact ⟨by simpa [edit, Buffer.edit, Buffer.moveToEnd] using splits.text,
        by simp [edit, Buffer.edit, Buffer.moveToEnd, splits.text]⟩
  | deleteLeft => exact splits.deleteLeft
  | deleteRight => exact splits.deleteRight

/-- A run of operations on the line is that run on the pair. -/
theorem splits_edits (splits : zipper.Splits line) (operations : List Edit) :
    (zipper.edits operations).Splits (line.edits operations) := by
  induction operations generalizing zipper line with
  | nil => exact splits
  | cons operation later ih => exact ih (splits_edit splits operation)

end Zipper

/-! ### What an operation changes -/

/-- A stretch of a line is replaced, and what stands in front of it and behind it stays. -/
structure Change where
  front : Text
  removed : Text
  inserted : Text
  behind : Text

/-- The change takes the one text to the other. -/
def Change.Turns (change : Change) (before after : Text) : Prop :=
  before = change.front ++ change.removed ++ change.behind ∧
    after = change.front ++ change.inserted ++ change.behind

namespace Zipper

/-- What an operation replaces in the line.  Only the operations that give the line as a whole
remove more than the one character at the cut. -/
def change : Zipper → Edit → Change
  | ⟨left, right⟩, .insert data => ⟨left, [], data, right⟩
  | ⟨left, right⟩, .insertBehind data => ⟨left, [], data, right⟩
  | ⟨left, right⟩, .set text => ⟨[], left ++ right, text, []⟩
  | ⟨left, right⟩, .clear => ⟨[], left ++ right, [], []⟩
  | ⟨left, right⟩, .deleteLeft => ⟨left.dropLast, left.getLast?.toList, [], right⟩
  | ⟨left, right⟩, .deleteRight => ⟨left, right.head?.toList, [], right.tail⟩
  | ⟨left, right⟩, .moveLeft => ⟨left, [], [], right⟩
  | ⟨left, right⟩, .moveRight => ⟨left, [], [], right⟩
  | ⟨left, right⟩, .moveToStart => ⟨left, [], [], right⟩
  | ⟨left, right⟩, .moveToEnd => ⟨left, [], [], right⟩

variable {zipper : Zipper} {line : Buffer}

/-- The text of the pair after an operation is the text before it with that change. -/
theorem turns_change_pair (zipper : Zipper) (operation : Edit) :
    (zipper.change operation).Turns (zipper.left ++ zipper.right)
      ((zipper.edit operation).left ++ (zipper.edit operation).right) := by
  obtain ⟨left, right⟩ := zipper
  cases operation with
  | moveLeft | deleteLeft =>
      rcases List.eq_nil_or_concat left with rfl | ⟨front, last, rfl⟩ <;>
        simp [change, edit, Change.Turns]
  | moveRight | deleteRight => cases right <;> simp [change, edit, Change.Turns]
  | insert | insertBehind | set | clear | moveToStart | moveToEnd =>
      simp [change, edit, Change.Turns]

/-- An operation on the line replaces that stretch of it and no other character. -/
theorem turns_change (splits : zipper.Splits line) (operation : Edit) :
    (zipper.change operation).Turns line.text (line.edit operation).text := by
  rw [splits.text, (splits_edit splits operation).text]
  exact turns_change_pair zipper operation

/-! ### Typing and taking back -/

/-- As many deletions to the left as a text has characters take it off the end of the left
part. -/
theorem edits_deleteLeft (left data right : Text) :
    edits ⟨left ++ data, right⟩ (List.replicate data.length .deleteLeft) = ⟨left, right⟩ := by
  induction data using List.reverseRecOn with
  | nil => simp [edits]
  | append_singleton front last ih =>
      rw [List.length_append, List.length_singleton, List.replicate_succ, ← List.append_assoc]
      have step : edit ⟨left ++ front ++ [last], right⟩ .deleteLeft = ⟨left ++ front, right⟩ := by
        simp only [edit, List.dropLast_concat]
      rw [edits, List.foldl_cons, step]
      exact ih

/-- A text that is typed and deleted again leaves the pair as it was. -/
theorem edits_insert_deleteLeft (zipper : Zipper) (data : Text) :
    zipper.edits (.insert data :: List.replicate data.length .deleteLeft) = zipper :=
  edits_deleteLeft zipper.left data zipper.right

/-- A pair is that of one line only. -/
theorem Splits.unique {other : Buffer} (splits : zipper.Splits line)
    (alike : zipper.Splits other) : line = other := by
  obtain ⟨text, cursor⟩ := line
  obtain ⟨otherText, otherCursor⟩ := other
  rw [Buffer.mk.injEq]
  exact ⟨splits.text.trans alike.text.symm, splits.cursor.trans alike.cursor.symm⟩

end Zipper

/-- After any operations on the empty line there is a pair that those operations on the empty
pair give: its two parts in a row are the text, and the cursor stands where they meet.  So the
cursor stands in the line, the next operation replaces the stretch at the cut and leaves every
other character as it is, and a text that is typed and then deleted character by character
leaves text and cursor exactly as they were. -/
theorem edits_split_the_line (operations : List Edit) :
    (Zipper.edits {} operations).Splits (Buffer.empty.edits operations) ∧
      (Buffer.empty.edits operations).cursor ≤ (Buffer.empty.edits operations).text.length ∧
      (∀ next : Edit,
        ((Zipper.edits {} operations).change next).Turns (Buffer.empty.edits operations).text
          ((Buffer.empty.edits operations).edit next).text) ∧
      ∀ data : Text,
        (Buffer.empty.edits operations).edits
            (.insert data :: List.replicate data.length .deleteLeft) =
          Buffer.empty.edits operations := by
  have splits : (Zipper.edits {} operations).Splits (Buffer.empty.edits operations) :=
    Zipper.splits_edits Zipper.splits_empty operations
  refine ⟨splits, splits.cursor_le, Zipper.turns_change splits, fun data => ?_⟩
  have after := Zipper.splits_edits splits
    (.insert data :: List.replicate data.length .deleteLeft)
  rw [Zipper.edits_insert_deleteLeft] at after
  exact after.unique splits

end LineShell

/-
Module: LineShell.Editor.Buffer
Purpose: The line being typed and the cursor in it.
Main exports: Buffer and its editing operations
-/
import LineShell.Text.Basic

namespace LineShell

/-- A line of text, and the number of characters in front of the cursor. -/
structure Buffer where
  text : Text := []
  cursor : Nat := 0
deriving DecidableEq, Repr, Inhabited

namespace Buffer

/-- The empty line. -/
def empty : Buffer := {}

/-- A line with the cursor at its end. -/
def ofText (text : Text) : Buffer :=
  { text := text, cursor := text.length }

/-- Whether there is no text. -/
def isEmpty (buffer : Buffer) : Bool :=
  buffer.text.isEmpty

/-- The number of characters. -/
def length (buffer : Buffer) : Nat :=
  buffer.text.length

/-- Inserts behind the cursor, which stays. -/
def insertBehind (buffer : Buffer) (data : Text) : Buffer :=
  { buffer with text := buffer.text.take buffer.cursor ++ data ++ buffer.text.drop buffer.cursor }

/-- Inserts in front of the cursor. -/
def insert (buffer : Buffer) (data : Text) : Buffer :=
  { buffer.insertBehind data with cursor := buffer.cursor + data.length }

/-- One place to the left, unless the cursor is at the start. -/
def moveLeft (buffer : Buffer) : Buffer :=
  { buffer with cursor := buffer.cursor - 1 }

/-- One place to the right, unless the cursor is at the end. -/
def moveRight (buffer : Buffer) : Buffer :=
  if buffer.cursor < buffer.text.length then { buffer with cursor := buffer.cursor + 1 }
  else buffer

/-- To the start of the line. -/
def moveToStart (buffer : Buffer) : Buffer :=
  { buffer with cursor := 0 }

/-- To the end of the line. -/
def moveToEnd (buffer : Buffer) : Buffer :=
  { buffer with cursor := buffer.text.length }

/-- Deletes the character in front of the cursor. -/
def deleteLeft (buffer : Buffer) : Buffer :=
  if 0 < buffer.cursor then
    { text := buffer.text.take (buffer.cursor - 1) ++ buffer.text.drop buffer.cursor
      cursor := buffer.cursor - 1 }
  else buffer

/-- Deletes the character behind the cursor. -/
def deleteRight (buffer : Buffer) : Buffer :=
  if buffer.cursor < buffer.text.length then
    { buffer with
      text := buffer.text.take buffer.cursor ++ buffer.text.drop (buffer.cursor + 1) }
  else buffer

/-- Puts a pair of characters around the cursor. -/
def insertPair (buffer : Buffer) (pair : Text) : Buffer :=
  (buffer.insertBehind pair).moveRight

end Buffer

end LineShell

/-
Module: LineShell.Terminal.Escape
Purpose: The control sequences that the shell and its programs write.
Main exports: escape, isFinal, Colour, Colour.code, paint, cursorLeftEdge,
  eraseLine, showCursor, eraseScreen, cursorRight
-/
import LineShell.Text.Basic

namespace LineShell

/-- The escape character. -/
def escape : Char := '\x1b'

/-- Whether a character ends a control sequence. -/
def isFinal (c : Char) : Bool :=
  '@' ≤ c && c ≤ '~'

/-- A control sequence: escape, an opening bracket, and what follows it. -/
def controlSequence (body : Text) : Text :=
  escape :: '[' :: body

/-! ### Colours -/

/-- The text colours in use: five of the basic ones, and the numbered palette. -/
inductive Colour where
  | red
  | green
  | yellow
  | blue
  | purple
  | palette (index : Int)
deriving DecidableEq, Repr, Inhabited

namespace Colour

/-- Suggestions. -/
def grey : Colour := .palette 8

/-- Dashes, names and equals signs of switches. -/
def switch : Colour := .palette 39

/-- References to variables. -/
def reference : Colour := .palette 93

/-- The line that greets. -/
def greeting : Colour := .palette 127

/-- The control sequence that selects a colour. -/
def code : Colour → Text
  | red => controlSequence "31m"
  | green => controlSequence "32m"
  | yellow => controlSequence "33m"
  | blue => controlSequence "34m"
  | purple => controlSequence "35m"
  | palette index => controlSequence ("38;5;" ++ Text.ofInt index ++ "m")

end Colour

/-- Selects the colour that the terminal has by default. -/
def resetColour : Text := controlSequence "0m"

/-- A text in a colour, with the default colour behind it. -/
def paint (text : Text) (colour : Colour) : Text :=
  colour.code ++ text ++ resetColour

/-! ### Lines and the cursor -/

/-- Moves the cursor to the left edge. -/
def cursorLeftEdge : Text := controlSequence "1000D"

/-- Erases from the cursor to the end of the line. -/
def eraseLine : Text := controlSequence "0K"

/-- Makes the cursor visible. -/
def showCursor : Text := controlSequence "?25h"

/-- Erases the whole screen and moves the cursor to its top. -/
def eraseScreen : Text := controlSequence "2J" ++ controlSequence "H"

/-- Moves the cursor to the right.  A move by no column is not written, since a
terminal takes a zero for a one. -/
def cursorRight (columns : Int) : Text :=
  if columns ≤ 0 then [] else controlSequence (Text.ofInt columns ++ "C")

/-! ### Marks in front of messages -/

/-- A message that informs. -/
def markedInfo (message : Text) : Text := paint "ℹ" .blue ++ ' ' :: message

/-- A message that warns. -/
def markedWarning (message : Text) : Text := paint "⚠" .yellow ++ ' ' :: message

/-- A message about an error. -/
def markedError (message : Text) : Text := paint "✖" .red ++ ' ' :: message

end LineShell

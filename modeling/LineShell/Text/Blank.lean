/-
Module: LineShell.Text.Blank
Purpose: The class of white space characters.
Main exports: isBlank, Text.isBlank
-/
import LineShell.Text.Basic

namespace LineShell

/-- Inclusive ranges of code points of the white space class: the characters
whose Unicode category is `Zs`, or whose bidirectional class is a paragraph
separator, a segment separator or white space. -/
def blankRanges : List (Nat × Nat) :=
  [(0x09, 0x0D), (0x1C, 0x1F), (0x20, 0x20), (0x85, 0x85), (0xA0, 0xA0),
   (0x1680, 0x1680), (0x2000, 0x200A), (0x2028, 0x2029), (0x202F, 0x202F),
   (0x205F, 0x205F), (0x3000, 0x3000)]

/-- Whether a character is white space. -/
def isBlank (c : Char) : Bool :=
  blankRanges.any fun range => range.1 ≤ c.toNat && c.toNat ≤ range.2

/-- Whether a text holds nothing but white space. -/
def Text.isBlank (text : Text) : Bool :=
  text.all LineShell.isBlank

example : (blankRanges.map fun range => range.2 + 1 - range.1).sum = 29 := by decide

example : isBlank ' ' = true ∧ isBlank '\n' = true ∧ isBlank '\u00a0' = true ∧
    isBlank '\u200b' = false ∧ isBlank 'x' = false := by decide

end LineShell

/-
Module: LineShell.Text.Quoted
Purpose: Text in quotes, with everything that could not be read back escaped.
Main exports: Quoted.escape, Quoted.char, Quoted.text
-/
import LineShell.Text.Printable

namespace LineShell.Quoted

/-- The last `width` hexadecimal digits of a number, in lower case. -/
def hex (width n : Nat) : Text :=
  (List.range width).reverse.map fun place => Nat.digitChar (n / Nat.pow 16 place % 16)

/-- A character as it stands between `quote` characters.  The backslash and the
quote itself get a backslash in front; tab, line feed and carriage return have
their letters; any other unprintable character is written with the shortest of
the escapes of two, four or eight hexadecimal digits. -/
def escape (quote c : Char) : Text :=
  if c = quote ∨ c = '\\' then ['\\', c]
  else if c = '\t' then ['\\', 't']
  else if c = '\n' then ['\\', 'n']
  else if c = '\r' then ['\\', 'r']
  else if isPrintable c then [c]
  else if c.toNat < 0x100 then '\\' :: 'x' :: hex 2 c.toNat
  else if c.toNat < 0x10000 then '\\' :: 'u' :: hex 4 c.toNat
  else '\\' :: 'U' :: hex 8 c.toNat

/-- Single quotes, unless the text has a single quote and no double quote. -/
def quoteFor (text : Text) : Char :=
  if text.contains '\'' && !text.contains '"' then '"' else '\''

/-- A whole text in the quotes that suit it. -/
def text (content : Text) : Text :=
  let quote := quoteFor content
  quote :: content.flatMap (escape quote) ++ [quote]

/-- One character in quotes. -/
def char (c : Char) : Text :=
  text [c]

end LineShell.Quoted

/-
Module: LineShell.Text.Basic
Purpose: Text as a list of characters, and the few operations on it that the
  list library lacks.
Main exports: Text, Text.joined, Text.endsWith, Text.sorted, Text.ofInt
-/

namespace LineShell

/-- Text is a list of Unicode scalar values.  Every length, column and cursor of
the library counts the elements of such a list, so no other unit of length
occurs. -/
abbrev Text := List Char

instance : Coe String Text := ⟨String.toList⟩

namespace Text

/-- The pieces with `separator` between any two neighbours. -/
def joined (separator : Text) : List Text → Text
  | [] => []
  | [piece] => piece
  | piece :: next :: rest => piece ++ separator ++ joined separator (next :: rest)

/-- Whether the text ends with `ending`. -/
def endsWith (text ending : Text) : Bool :=
  ending.reverse.isPrefixOf text.reverse

/-- Whether one text does not stand behind another in the order of code points. -/
def notBehind : Text → Text → Bool
  | [], _ => true
  | _ :: _, [] => false
  | a :: first, b :: second =>
      if a = b then notBehind first second else a.toNat < b.toNat

/-- The texts in the order of their code points. -/
def sorted (texts : List Text) : List Text :=
  texts.mergeSort notBehind

/-- Decimal digits of a natural number, without leading zeros. -/
def ofNat (n : Nat) : Text :=
  (Nat.toDigits 10 n)

/-- Decimal digits of an integer, with a sign only below zero. -/
def ofInt : Int → Text
  | .ofNat n => ofNat n
  | .negSucc n => '-' :: ofNat (n + 1)

@[simp] theorem joined_nil (separator : Text) : joined separator [] = [] := rfl

@[simp] theorem joined_singleton (separator piece : Text) :
    joined separator [piece] = piece := rfl

end Text

/-- The end of a line of output: carriage return, then line feed. -/
def lineEnd : Text := ['\r', '\n']

end LineShell

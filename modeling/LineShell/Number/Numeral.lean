/-
Module: LineShell.Number.Numeral
Purpose: Numbers of seconds, as people write them and as messages show them.
Main exports: Numeral, Numeral.read?, Numeral.value?, Numeral.isNotPositive,
  Numeral.general, Numeral.plain
-/
import LineShell.Number.Digit
import LineShell.Number.Rounding
import LineShell.Text.Blank

namespace LineShell

/-- A number as it was given: a whole number, or a decimal `± digits · 10 ^
exponent` that stands for the binary number of 64 bits nearest to it, or one of
the values outside the number line. -/
inductive Numeral where
  | whole (n : Int)
  | decimal (negative : Bool) (digits : Nat) (exponent : Int)
  | infinite (negative : Bool)
  | undefined
deriving DecidableEq, Repr, Inhabited

namespace Numeral

/-- The decimal with given digits.  What is too large for 64 bits is infinite, and
what is too small is zero. -/
def ofDigits (negative : Bool) (digits : Nat) (exponent : Int) : Numeral :=
  let places := (Nat.toDigits 10 digits).length + exponent
  if digits = 0 ∨ places < -400 then .decimal negative 0 0
  else if 400 < places then .infinite negative
  else
    let binary := Binary.nearest (Scientific.fraction ⟨digits, exponent⟩)
    if binary.overflows then .infinite negative
    else if binary.significand = 0 then .decimal negative 0 0
    else .decimal negative digits exponent

/-! ### Reading -/

/-- White space that may surround a number. -/
def isMargin (c : Char) : Bool :=
  isBlank c && !('\x1c' ≤ c && c ≤ '\x1f')

/-- A text without the white space around it. -/
def trimmed (text : Text) : Text :=
  ((text.dropWhile isMargin).reverse.dropWhile isMargin).reverse

/-- Takes digits, between any two of which one underscore may stand.  Yields their
number, their value, and what is behind them. -/
def takeDigits (text : Text) : Nat × Nat × Text :=
  let rec go (count value : Nat) : Text → Nat × Nat × Text
    | [] => (count, value, [])
    | c :: rest =>
        match digitValue? c with
        | some digit => go (count + 1) (value * 10 + digit) rest
        | none =>
            match c, rest with
            | '_', next :: behind =>
                match digitValue? next with
                | some digit =>
                    if count = 0 then (count, value, c :: rest)
                    else go (count + 1) (value * 10 + digit) behind
                | none => (count, value, c :: rest)
            | _, _ => (count, value, c :: rest)
  go 0 0 text

/-- An optional sign; true for a minus. -/
def takeSign : Text → Bool × Text
  | '-' :: rest => (true, rest)
  | '+' :: rest => (false, rest)
  | text => (false, text)

/-- The exponent at the end of a number. -/
def readExponent? : Text → Option Int
  | [] => some 0
  | c :: rest =>
      if c = 'e' ∨ c = 'E' then
        match takeSign rest with
        | (negative, digits) =>
            match takeDigits digits with
            | (0, _) => none
            | (_, value, []) => some (if negative then -value else value)
            | _ => none
      else none

/-- A decimal number without a sign. -/
def readMagnitude? (negative : Bool) (text : Text) : Option Numeral :=
  let (wholeCount, wholeValue, behind) := takeDigits text
  let (partCount, partValue, behind) :=
    match behind with
    | '.' :: digits => takeDigits digits
    | _ => (0, 0, behind)
  if wholeCount + partCount = 0 then none
  else
    (readExponent? behind).map fun exponent =>
      ofDigits negative (wholeValue * Nat.pow 10 partCount + partValue) (exponent - partCount)

/-- Reads a number: digits with at most one point, an exponent, or a word for one
of the values outside the number line; any of them with a sign. -/
def read? (text : Text) : Option Numeral :=
  let (negative, body) := takeSign (trimmed text)
  let word := body.map Char.toLower
  if word = "inf" ∨ word = "infinity" then some (.infinite negative)
  else if word = "nan" then some .undefined
  else readMagnitude? negative body

/-! ### Values -/

/-- The place on the number line. -/
def value? : Numeral → Option Rat
  | .whole n => some n
  | .decimal negative digits exponent =>
      let magnitude : Rat :=
        match exponent with
        | .ofNat n => (digits * Nat.pow 10 n : Nat)
        | .negSucc n => mkRat digits (Nat.pow 10 (n + 1))
      some (if negative then -magnitude else magnitude)
  | .infinite _ => none
  | .undefined => none

/-- Whether the number is known to be zero or below zero. -/
def isNotPositive : Numeral → Bool
  | .whole n => n ≤ 0
  | .decimal negative digits _ => negative || digits = 0
  | .infinite negative => negative
  | .undefined => false

/-! ### Showing -/

/-- Digits without the zeros at their end. -/
def withoutFinalZeros (digits : Text) : Text :=
  (digits.reverse.dropWhile (· = '0')).reverse

/-- A sign, if there is one to show. -/
def signed (negative : Bool) (text : Text) : Text :=
  if negative then '-' :: text else text

/-- An exponent with its sign and two digits or more. -/
def exponentMark (exponent : Int) : Text :=
  let digits := Text.ofNat exponent.natAbs
  'e' :: (if exponent < 0 then '-' else '+') ::
    (if digits.length < 2 then '0' :: digits else digits)

/-- A number from its digits, the first of which has the place value `10 ^ order`:
with an exponent, or without one and a point in the right place.  `tail` is what
stands behind the whole part if nothing else does. -/
def layOut (digits : Text) (order : Int) (positional : Bool) (tail : Text) : Text :=
  if positional then
    match order with
    | .ofNat n =>
        let whole := digits.take (n + 1) ++ List.replicate (n + 1 - digits.length) '0'
        match digits.drop (n + 1) with
        | [] => whole ++ tail
        | part => whole ++ '.' :: part
    | .negSucc n => '0' :: '.' :: List.replicate n '0' ++ digits
  else
    match digits with
    | [] => exponentMark order
    | [digit] => digit :: exponentMark order
    | digit :: part => digit :: '.' :: part ++ exponentMark order

/-- The digits of a number, without zeros at their end, and the place value of the
first of them. -/
def Digits.of (number : Scientific) : Text × Int :=
  let digits := Text.ofNat number.significand
  (withoutFinalZeros digits, number.exponent + digits.length - 1)

/-- A positive number with at most six significant digits, and with an exponent if
that is below -4 or above 5. -/
def generalMagnitude (value : Fraction) : Text :=
  match Digits.of (Scientific.nearest 6 value) with
  | (digits, order) => layOut digits order (-4 ≤ order && order < 6) []

/-- A positive number with as many digits as tell it from all others, a point, and
with an exponent if that is below -4 or above 15. -/
def plainMagnitude (value : Binary) : Text :=
  match Digits.of value.shortest with
  | (digits, order) => layOut digits order (-4 ≤ order && order < 16) ['.', '0']

/-- The number in at most six significant digits. -/
def general : Numeral → Text
  | .whole 0 => ['0']
  | .whole n =>
      signed (n < 0) (generalMagnitude (Binary.nearest ⟨n.natAbs, 1⟩).fraction)
  | .decimal negative 0 _ => signed negative ['0']
  | .decimal negative digits exponent =>
      signed negative
        (generalMagnitude (Binary.nearest (Scientific.fraction ⟨digits, exponent⟩)).fraction)
  | .infinite negative => signed negative "inf"
  | .undefined => "nan"

/-- The number as it was given, a decimal in its shortest form. -/
def plain : Numeral → Text
  | .whole n => Text.ofInt n
  | .decimal negative 0 _ => signed negative "0.0"
  | .decimal negative digits exponent =>
      signed negative (plainMagnitude (Binary.nearest (Scientific.fraction ⟨digits, exponent⟩)))
  | .infinite negative => signed negative "inf"
  | .undefined => "nan"

end Numeral

end LineShell

/-
Module: LineShell.Number.Rounding
Purpose: Rounding of positive fractions, to a number of decimal digits and to
  the binary numbers of 64 bits, in exact arithmetic.
Main exports: roundQuotient, Scientific, Scientific.nearest, Binary,
  Binary.nearest, Binary.fraction
-/
import LineShell.Text.Basic

namespace LineShell

/-- The natural number nearest to a quotient; a half goes to the even neighbour. -/
def roundQuotient (numerator denominator : Nat) : Nat :=
  let whole := numerator / denominator
  let twice := 2 * (numerator % denominator)
  if twice < denominator then whole
  else if denominator < twice then whole + 1
  else if whole % 2 = 0 then whole
  else whole + 1

/-- A positive fraction. -/
structure Fraction where
  numerator : Nat
  denominator : Nat
deriving DecidableEq, Repr, Inhabited

namespace Fraction

/-- A fraction times a power of a base. -/
def scale (fraction : Fraction) (base : Nat) (exponent : Int) : Fraction :=
  match exponent with
  | .ofNat n => { fraction with numerator := fraction.numerator * Nat.pow base n }
  | .negSucc n => { fraction with denominator := fraction.denominator * Nat.pow base (n + 1) }

/-- The nearest natural number. -/
def round (fraction : Fraction) : Nat :=
  roundQuotient fraction.numerator fraction.denominator

/-- The whole part. -/
def floor (fraction : Fraction) : Nat :=
  fraction.numerator / fraction.denominator

/-- The greatest exponent whose power of the base is not above the fraction.  The
numbers of digits of numerator and denominator leave two candidates. -/
def order (fraction : Fraction) (base : Nat) : Int :=
  let places (n : Nat) : Int := (Nat.toDigits base n).length
  let guess := places fraction.numerator - places fraction.denominator
  if (fraction.scale base (-guess)).floor = 0 then guess - 1 else guess

end Fraction

/-! ### Decimal digits -/

/-- A positive number `significand · 10 ^ exponent`. -/
structure Scientific where
  significand : Nat
  exponent : Int
deriving DecidableEq, Repr, Inhabited

namespace Scientific

/-- The exact value. -/
def fraction (number : Scientific) : Fraction :=
  Fraction.scale { numerator := number.significand, denominator := 1 } 10 number.exponent

/-- The fraction rounded to a number of significant digits, a half to even. -/
def nearest (digits : Nat) (fraction : Fraction) : Scientific :=
  let exponent := fraction.order 10 + 1 - digits
  { significand := (fraction.scale 10 (-exponent)).round, exponent := exponent }

end Scientific

/-! ### Binary numbers of 64 bits -/

/-- A positive number `significand · 2 ^ exponent`. -/
structure Binary where
  significand : Nat
  exponent : Int
deriving DecidableEq, Repr, Inhabited

namespace Binary

/-- The exact value. -/
def fraction (number : Binary) : Fraction :=
  Fraction.scale { numerator := number.significand, denominator := 1 } 2 number.exponent

/-- The number of 53 binary digits nearest to a fraction, a half to even.  No
exponent is below -1074, so small numbers have fewer digits. -/
def nearest (fraction : Fraction) : Binary :=
  let exponent := max (-1074) (fraction.order 2 - 52)
  let significand := (fraction.scale 2 (-exponent)).round
  if significand = Nat.pow 2 53 then { significand := Nat.pow 2 52, exponent := exponent + 1 }
  else { significand := significand, exponent := exponent }

/-- Whether the exponent is above all exponents of 64 bit numbers. -/
def overflows (number : Binary) : Bool :=
  971 < number.exponent

/-- The decimal number of fewest digits that has this number as its nearest, and
among those the nearest one. -/
def shortest (number : Binary) : Scientific :=
  let value := number.fraction
  let hit (digits : Nat) : Option Scientific :=
    let exponent := value.order 10 + 1 - (digits + 1 : Nat)
    let low := (value.scale 10 (-exponent)).floor
    let near := (value.scale 10 (-exponent)).round
    let far := if near = low then low + 1 else low
    ([near, far].map (Scientific.mk · exponent)).find? fun candidate =>
      candidate.significand ≠ 0 && nearest candidate.fraction == number
  ((List.range 17).findSome? hit).getD (Scientific.nearest 17 value)

end Binary

end LineShell

/-
Module: LineShell.Text.Utf8
Purpose: Reading bytes as UTF-8, where every ill-formed part becomes one
  replacement character.
Main exports: Utf8.decode
-/
import LineShell.Text.Basic

namespace LineShell

/-- Bytes as they arrive from outside. -/
abbrev Bytes := List UInt8

namespace Utf8

/-- Stands for an ill-formed part. -/
def replacement : Char := '\uFFFD'

/-- A character whose first bytes have been read. -/
structure Partial where
  /-- How many bytes are owed after the next one. -/
  owed : Nat
  /-- The least value the next byte may have. -/
  low : Nat
  /-- The greatest value the next byte may have. -/
  high : Nat
  /-- The bits read so far. -/
  bits : Nat
deriving DecidableEq, Repr

/-- What the first byte of a character says. -/
inductive Lead where
  | whole (c : Char)
  | opens (rest : Partial)
  | illFormed
deriving DecidableEq, Repr

/-- The bounds on the second byte exclude overlong forms, surrogates and numbers
above U+10FFFF, so that whatever is completed is a scalar value. -/
def lead (byte : Nat) : Lead :=
  if byte < 0x80 then .whole (Char.ofNat byte)
  else if byte < 0xC2 then .illFormed
  else if byte < 0xE0 then .opens ⟨0, 0x80, 0xBF, byte - 0xC0⟩
  else if byte = 0xE0 then .opens ⟨1, 0xA0, 0xBF, 0⟩
  else if byte = 0xED then .opens ⟨1, 0x80, 0x9F, byte - 0xE0⟩
  else if byte < 0xF0 then .opens ⟨1, 0x80, 0xBF, byte - 0xE0⟩
  else if byte = 0xF0 then .opens ⟨2, 0x90, 0xBF, 0⟩
  else if byte < 0xF4 then .opens ⟨2, 0x80, 0xBF, byte - 0xF0⟩
  else if byte = 0xF4 then .opens ⟨2, 0x80, 0x8F, 4⟩
  else .illFormed

/-- Decoding from the middle of a text.  A byte that cannot go on a character
ends it: what was read of it becomes one replacement character, and the byte is
looked at afresh. -/
def decodeFrom : Option Partial → Bytes → Text
  | none, [] => []
  | some _, [] => [replacement]
  | state, byte :: rest =>
      let b := byte.toNat
      let fresh :=
        match lead b with
        | .whole c => c :: decodeFrom none rest
        | .opens next => decodeFrom (some next) rest
        | .illFormed => replacement :: decodeFrom none rest
      match state with
      | none => fresh
      | some character =>
          if character.low ≤ b ∧ b ≤ character.high then
            let bits := character.bits * 64 + (b - 0x80)
            match character.owed with
            | 0 => Char.ofNat bits :: decodeFrom none rest
            | owed + 1 => decodeFrom (some ⟨owed, 0x80, 0xBF, bits⟩) rest
          else replacement :: fresh

/-- The text that a sequence of bytes spells. -/
def decode (bytes : Bytes) : Text :=
  decodeFrom none bytes

end Utf8

end LineShell

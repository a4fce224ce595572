/-!
# Binary floating point numbers

A `Binary f` is a finite number of the binary format `f`, kept exactly: a sign, a mantissa and a
power of two. The representation is canonical, so that equal numbers are equal values, with one
exception that the format itself makes: zero has a sign.
-/

namespace CimStore

/-- A binary format: the bits of its mantissa and the range of its power of two. -/
structure BinaryFormat where
  precision : Nat
  minExponent : Int
  maxExponent : Int
deriving DecidableEq, Repr

/-- Double precision. -/
def binary64 : BinaryFormat := ⟨53, -1074, 971⟩

/-- Single precision. -/
def binary32 : BinaryFormat := ⟨24, -149, 104⟩

/-- The finite number `± mantissa · 2 ^ exponent` of a format. -/
structure Binary (f : BinaryFormat) where
  negative : Bool
  mantissa : Nat
  exponent : Int
  mantissa_lt : mantissa < Nat.pow 2 f.precision
  le_exponent : f.minExponent ≤ exponent
  exponent_le : exponent ≤ f.maxExponent
  /-- Of the ways to write one number, the one with the largest mantissa. -/
  canonical : Nat.pow 2 (f.precision - 1) ≤ mantissa ∨ exponent = f.minExponent
deriving DecidableEq

namespace Binary

variable {f : BinaryFormat}

/-- The number with these parts, if they are those of a canonical number. -/
def ofParts? (f : BinaryFormat) (negative : Bool) (mantissa : Nat) (exponent : Int) :
    Option (Binary f) :=
  if h : mantissa < Nat.pow 2 f.precision ∧ f.minExponent ≤ exponent ∧ exponent ≤ f.maxExponent ∧
      (Nat.pow 2 (f.precision - 1) ≤ mantissa ∨ exponent = f.minExponent) then
    some ⟨negative, mantissa, exponent, h.1, h.2.1, h.2.2.1, h.2.2.2⟩
  else none

/-- Zero loses its sign; every other number is kept. -/
def unsignZero (x : Binary f) : Binary f :=
  if x.mantissa = 0 then { x with negative := false } else x

end Binary

end CimStore

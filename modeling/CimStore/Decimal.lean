import CimStore.Integer

/-!
# Decimal numbers as text

A `Decimal` is a sign, a natural number of digits and a power of ten. `Decimal.ofChars?` reads the
usual notation (sign, fraction and exponent optional, at least one digit in front of the exponent);
`Decimal.render` writes it without an exponent.
-/

namespace CimStore

/-- The number `± digits · 10 ^ exponent`. -/
structure Decimal where
  negative : Bool
  digits : Nat
  exponent : Int
deriving DecidableEq, Repr

namespace Decimal

/-- The exponent that follows the digits; none at all counts as zero. -/
def exponentOfChars? : List Char → Option Int
  | [] => some 0
  | c :: cs =>
    if c = 'e' || c = 'E' then
      let (negative, ds) := takeSign cs
      (digits? ds).map (signed negative)
    else none

/-- The digits of a fraction, after the point, and what follows them. -/
def takeFraction : List Char → List Char × List Char
  | '.' :: cs => (cs.takeWhile isDigit, cs.dropWhile isDigit)
  | cs => ([], cs)

/-- The number that a text writes: sign, digits, point and digits, exponent. -/
def ofChars? (cs : List Char) : Option Decimal :=
  let (negative, cs) := takeSign cs
  let whole := cs.takeWhile isDigit
  let (fraction, cs) := takeFraction (cs.dropWhile isDigit)
  if whole.isEmpty && fraction.isEmpty then none
  else
    (exponentOfChars? cs).map fun e => ⟨negative, ofDigits (whole ++ fraction), e - fraction.length⟩

/-- The digits with a point in front of the last `places` of them, and zeros so that one stands
before it. -/
def withPoint (places : Nat) (ds : List Char) : List Char :=
  if places < ds.length then ds.take (ds.length - places) ++ '.' :: ds.drop (ds.length - places)
  else '0' :: '.' :: (List.replicate (places - ds.length) '0' ++ ds)

/-- The number without an exponent: zeros fill up to the point on either side. -/
def renderChars (d : Decimal) : List Char :=
  let ds := Nat.toDigits 10 d.digits
  let body :=
    if d.digits = 0 then ['0']
    else if 0 ≤ d.exponent then ds ++ List.replicate d.exponent.toNat '0'
    else withPoint (-d.exponent).toNat ds
  if d.negative then '-' :: body else body

def render (d : Decimal) : String := String.ofList d.renderChars

end Decimal

end CimStore

import CimStore.Binary.Format
import CimStore.Decimal

/-!
# The nearest binary number

`Binary.nearest?` rounds a decimal number to the nearest number of a binary format, of two equally
near ones to that with the even mantissa, and gives nothing if the result is out of range. The
quotient of natural numbers that the decimal stands for is rounded once, with no intermediate
result that is not exact.
-/

namespace CimStore

/-- The quotient `n / d` to the nearest integer, a half to the even neighbour. -/
def roundDiv (n d : Nat) : Nat :=
  let q := n / d
  let r := n % d
  if 2 * r < d then q else if d < 2 * r then q + 1 else q + q % 2

/-- The quotient `n / d` divided by `b ^ e`, as a quotient again. -/
def scaleDown (b : Nat) (e : Int) (n d : Nat) : Nat × Nat :=
  if 0 ≤ e then (n, d * Nat.pow b e.toNat) else (n * Nat.pow b (-e).toNat, d)

/-- The least `k` with `n / d < 2 ^ k`, for positive `n` and `d`. -/
def magnitude (n d : Nat) : Int :=
  let k : Int := n.log2 - d.log2
  let (n', d') := scaleDown 2 k n d
  if n' < d' then k else k + 1

namespace Binary

/-- The nearest number of the format to `± n / d`. -/
def ofRatio? (f : BinaryFormat) (negative : Bool) (n d : Nat) : Option (Binary f) :=
  let e := max f.minExponent (magnitude n d - f.precision)
  let (n', d') := scaleDown 2 e n d
  let m := roundDiv n' d'
  if m = Nat.pow 2 f.precision then ofParts? f negative (Nat.pow 2 (f.precision - 1)) (e + 1)
  else ofParts? f negative m e

/-- The nearest number of the format to a decimal number. The first two cases keep the powers of
ten small: a number too large for the format, and one below half its least positive number. -/
def nearest? (f : BinaryFormat) (x : Decimal) : Option (Binary f) :=
  let places : Int := x.exponent + (Nat.toDigits 10 x.digits).length
  if x.digits = 0 then ofParts? f x.negative 0 f.minExponent
  else if f.maxExponent + f.precision ≤ 3 * (places - 1) then none
  else if places ≤ 0 && 3 * places < f.minExponent - 1 then ofParts? f x.negative 0 f.minExponent
  else
    let (n, d) := scaleDown 10 (-x.exponent) x.digits 1
    ofRatio? f x.negative n d

/-- The number of the format that a text writes, rounded to nearest; nothing if the text is no
decimal number or its value is out of range. -/
def parse? (f : BinaryFormat) (text : String) : Option (Binary f) :=
  (Decimal.ofChars? (Text.trimChars text.toList)).bind (nearest? f)

end Binary

end CimStore

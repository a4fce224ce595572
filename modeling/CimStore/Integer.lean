import CimStore.Text.Blank

/-!
# Integers as text

Storage ids and integer attributes are 64-bit signed integers. A text gives one if, without the
blanks around it, it is an optional sign and decimal digits whose value is in range.
-/

namespace CimStore

/-- A storage id or the value of an integer attribute: from `minInteger` to `maxInteger`. -/
def minInteger : Int := -9223372036854775808

/-- The largest storage id there is. -/
def maxInteger : Int := 9223372036854775807

/-- Whether `c` is one of the ten ASCII digits. -/
def isDigit (c : Char) : Bool := '0' ≤ c && c ≤ '9'

/-- The number that a row of digits writes. -/
def ofDigits (ds : List Char) : Nat :=
  ds.foldl (fun n d => 10 * n + (d.toNat - '0'.toNat)) 0

/-- The number that `ds` writes, if it is a digit or more and nothing else. -/
def digits? (ds : List Char) : Option Nat :=
  if ds.isEmpty || !ds.all isDigit then none else some (ofDigits ds)

/-- Takes a sign off the front: whether it is a minus, and the rest. -/
def takeSign : List Char → Bool × List Char
  | '-' :: cs => (true, cs)
  | '+' :: cs => (false, cs)
  | cs => (false, cs)

/-- The number with the given sign and magnitude. -/
def signed (negative : Bool) (n : Nat) : Int := if negative then -(n : Int) else n

/-- An integer of 64 bits. -/
abbrev Integer64 := { i : Int // minInteger ≤ i ∧ i ≤ maxInteger }

/-- The integer, if 64 bits hold it. -/
def integer64? (i : Int) : Option Integer64 :=
  if h : minInteger ≤ i ∧ i ≤ maxInteger then some ⟨i, h⟩ else none

/-- The integer that an untrimmed text writes, blanks not allowed. -/
def integer64OfChars? (cs : List Char) : Option Integer64 :=
  let (negative, ds) := takeSign cs
  (digits? ds).bind fun n => integer64? (signed negative n)

def integerOfChars? (cs : List Char) : Option Int := (integer64OfChars? cs).map (·.val)

/-- The integer that a text writes, blanks around it allowed. -/
def parseInteger64? (text : String) : Option Integer64 :=
  integer64OfChars? (Text.trimChars text.toList)

def parseInteger? (text : String) : Option Int := (parseInteger64? text).map (·.val)

def formatInteger (i : Int) : String := toString i

end CimStore

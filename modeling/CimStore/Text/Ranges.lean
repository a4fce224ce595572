/-!
# Ranges of characters

A property of characters is kept as the ranges of code points that have it: the first and the last
of each, ascending.
-/

namespace CimStore.Text

/-- Whether the code point of `c` is in one of the ranges. -/
def isIn (ranges : List (Nat × Nat)) (c : Char) : Bool :=
  ranges.any fun r => r.1 ≤ c.toNat && c.toNat ≤ r.2

end CimStore.Text

import CimStore.Binary.Nearest

/-!
# The shortest decimal of a binary number

`Binary.shortest` gives the decimal number with the fewest digits that rounds back to a binary
number: the one on the coarsest grid of multiples of a power of ten that has a point in the
interval of numbers rounding to it, and on that grid the point nearest to the number, of two
equally near ones the larger in magnitude.

All quantities are exact: with `q = 2 ^ (exponent - 2)` the number is `4 · mantissa · q`, and the
interval ends at whole multiples of `q`.
-/

namespace CimStore.Binary

variable {f : BinaryFormat}

/-- The lower end of the interval that rounds to the number, in quarters of its last place. Below
a power of two the neighbours are half as far apart. -/
def lowQuarter (x : Binary f) : Nat :=
  if x.mantissa = Nat.pow 2 (f.precision - 1) && f.minExponent < x.exponent then 4 * x.mantissa - 1
  else 4 * x.mantissa - 2

/-- The upper end of the interval that rounds to the number, in quarters of its last place. -/
def highQuarter (x : Binary f) : Nat := 4 * x.mantissa + 2

/-- `10 ^ g` and a quarter of the last place, as multiples of a common unit. -/
def gridUnits (x : Binary f) (g : Int) : Nat × Nat :=
  let (q, s) := scaleDown 2 (2 - x.exponent) 1 1
  let (p, r) := scaleDown 10 (-g) 1 1
  (p * s, q * r)

/-- The multiple of `10 ^ g` nearest to the number among those that round to it. -/
def gridPoint? (x : Binary f) (g : Int) : Option Nat :=
  let (ten, quarter) := x.gridUnits g
  let v := 4 * x.mantissa * quarter
  let below := v / ten
  let inside (y : Nat) : Bool :=
    if x.mantissa % 2 = 0 then x.lowQuarter * quarter ≤ y && y ≤ x.highQuarter * quarter
    else x.lowQuarter * quarter < y && y < x.highQuarter * quarter
  let down := inside (below * ten)
  let up := inside ((below + 1) * ten)
  if up && (!down || ten ≤ 2 * (v % ten)) then some (below + 1)
  else if down then some below
  else none

/-- A grid too coarse to have a point other than zero at or below the number. -/
def coarseGrid (x : Binary f) : Int :=
  let e : Int := x.mantissa.log2 + 2 + x.exponent
  if 0 ≤ e then e / 3 + 1 else -(-e / 4)

/-- The point found on the coarsest of the grids `10 ^ g`, `10 ^ (g - 1)`, … that has one; after
`fuel` grids without a point, the largest multiple of `10 ^ g` that is not above the number. -/
def searchGrids (x : Binary f) : Nat → Int → Nat × Int
  | 0, g =>
    let (ten, quarter) := x.gridUnits g
    (4 * x.mantissa * quarter / ten, g)
  | fuel + 1, g =>
    match x.gridPoint? g with
    | some n => (n, g)
    | none => searchGrids x fuel (g - 1)

/-- The decimal number with the fewest digits that rounds to `x`. The search ends at the latest
where `x` itself is on the grid. -/
def shortest (x : Binary f) : Decimal :=
  let start := x.coarseGrid
  let (n, g) := x.searchGrids (start - min x.exponent 0).toNat start
  ⟨x.negative, n, g⟩

/-- The shortest digits that read back as the number, without an exponent. -/
def format (x : Binary f) : String :=
  if x.mantissa = 0 then (Decimal.mk x.negative 0 0).render else x.shortest.render

end CimStore.Binary

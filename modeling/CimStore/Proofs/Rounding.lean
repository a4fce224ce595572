import CimStore.Binary.Shortest
import CimStore.Proofs.Digits
import Mathlib.Tactic.Linarith
import Mathlib.Tactic.Positivity
import Mathlib.Tactic.NormNum

/-!
# Quotients, and the interval of a binary number

`Binary.nearest?` rounds a quotient on a grid that its magnitude decides, and `Binary.format` writes
the shortest decimal number out of the interval around a binary number:

* `roundDiv_spec`: a quotient is rounded to an integer no further than a half from it;
* `magnitude_spec`: the magnitude is the power of two above the quotient;
* `Binary.Rounds x v`: the value `v` lies between the two halfway points around `x`; on one of them
  only if the mantissa is even;
* `Binary.rounds_searchGrids`, `Binary.format_rounds`: the value that is written lies in it.
-/

namespace CimStore

/-! ## Quotients -/

section Quotient

variable {n d : Nat}

theorem scaleDown_snd_pos {b : Nat} (hb : 0 < b) (e : Int) (hd : 0 < d) :
    0 < (scaleDown b e n d).2 := by
  unfold scaleDown
  split
  · exact Nat.mul_pos hd (Nat.pow_pos hb)
  · exact hd

/-- The quotient is divided by the power. -/
theorem ratio_scaleDown {b : Nat} (hb : 0 < b) (e : Int) (n d : Nat) :
    ((scaleDown b e n d).1 : ℚ) / (scaleDown b e n d).2 = (n : ℚ) / d / (b : ℚ) ^ e := by
  have hb' : (b : ℚ) ≠ 0 := by exact_mod_cast hb.ne'
  unfold scaleDown
  by_cases he : 0 ≤ e
  · have hpow : (b : ℚ) ^ e = (b : ℚ) ^ e.toNat := by
      rw [← zpow_natCast, Int.toNat_of_nonneg he]
    rw [if_pos he, hpow]
    push_cast [Nat.pow_eq]
    rw [div_div]
  · have hpow : (b : ℚ) ^ e = ((b : ℚ) ^ (-e).toNat)⁻¹ := by
      rw [← zpow_natCast, Int.toNat_of_nonneg (by omega), ← zpow_neg, neg_neg]
    rw [if_neg he, hpow]
    push_cast [Nat.pow_eq]
    rw [div_inv_eq_mul, mul_div_right_comm]

/-- **A quotient is rounded to an integer no further than a half from it**, at a half to an even
one. -/
theorem roundDiv_spec (hd : 0 < d) : 2 * roundDiv n d * d ≤ 2 * n + d ∧
    2 * n ≤ 2 * roundDiv n d * d + d ∧ (roundDiv n d % 2 = 0 ∨
      2 * roundDiv n d * d < 2 * n + d ∧ 2 * n < 2 * roundDiv n d * d + d) := by
  have hn := Nat.div_add_mod n d
  have hr := Nat.mod_lt n hd
  unfold roundDiv
  generalize n / d = q at *
  generalize n % d = r at *
  have hq : 2 * q * d = 2 * (d * q) := by ring
  have hq' : 2 * (q + 1) * d = 2 * (d * q) + 2 * d := by ring
  simp only
  split_ifs with h1 h2
  · omega
  · omega
  · -- At a half the remainder of the quotient decides.
    rcases Nat.mod_two_eq_zero_or_one q with hmod | hmod
    · rw [hmod, Nat.add_zero]
      omega
    · rw [hmod]
      omega

/-- The quotient over `2 ^ e`, rounded. -/
theorem roundDiv_scaleDown_spec {m : Nat} {e : Int} (hd : 0 < d)
    (hm : roundDiv (scaleDown 2 e n d).1 (scaleDown 2 e n d).2 = m) :
    (m - 1 / 2 : ℚ) * 2 ^ e ≤ (n : ℚ) / d ∧ (n : ℚ) / d ≤ (m + 1 / 2 : ℚ) * 2 ^ e ∧
      (m % 2 = 0 ∨
        (m - 1 / 2 : ℚ) * 2 ^ e < (n : ℚ) / d ∧ (n : ℚ) / d < (m + 1 / 2 : ℚ) * 2 ^ e) := by
  have hsnd := scaleDown_snd_pos (n := n) (b := 2) (by decide) e hd
  have hratio := ratio_scaleDown (b := 2) (by decide) e n d
  have hpow : (0 : ℚ) < 2 ^ e := by positivity
  have hspec := roundDiv_spec (n := (scaleDown 2 e n d).1) hsnd
  rw [hm] at hspec
  generalize (scaleDown 2 e n d).1 = n' at *
  generalize (scaleDown 2 e n d).2 = d' at *
  have hd' : (0 : ℚ) < d' := by exact_mod_cast hsnd
  have hv : (n : ℚ) / d = n' / d' * 2 ^ e := by
    rw [hratio]
    push_cast
    rw [div_mul_cancel₀ _ hpow.ne']
  rw [hv, mul_le_mul_iff_left₀ hpow, mul_le_mul_iff_left₀ hpow, mul_lt_mul_iff_left₀ hpow,
    mul_lt_mul_iff_left₀ hpow, le_div_iff₀ hd', div_le_iff₀ hd', lt_div_iff₀ hd', div_lt_iff₀ hd']
  obtain ⟨hlow, hhigh, htie⟩ := hspec
  refine ⟨?_, ?_, htie.imp_right fun ⟨hlow', hhigh'⟩ => ⟨?_, ?_⟩⟩
  · have : (2 * m * d' : ℚ) ≤ 2 * n' + d' := by exact_mod_cast hlow
    linarith
  · have : (2 * n' : ℚ) ≤ 2 * m * d' + d' := by exact_mod_cast hhigh
    linarith
  · have : (2 * m * d' : ℚ) < 2 * n' + d' := by exact_mod_cast hlow'
    linarith
  · have : (2 * n' : ℚ) < 2 * m * d' + d' := by exact_mod_cast hhigh'
    linarith

/-- The quotient lies between the last two powers of two. -/
theorem magnitude_spec (hn : 0 < n) (hd : 0 < d) :
    (2 : ℚ) ^ (magnitude n d - 1) ≤ (n : ℚ) / d ∧ (n : ℚ) / d < 2 ^ magnitude n d := by
  have hdq : (0 : ℚ) < d := by exact_mod_cast hd
  have hn1 : (2 : ℚ) ^ (n.log2 : Int) ≤ n := by
    rw [zpow_natCast]; exact_mod_cast Nat.log2_self_le hn.ne'
  have hn2 : (n : ℚ) < 2 ^ ((n.log2 : Int) + 1) := by
    have : n < 2 ^ (n.log2 + 1) := Nat.lt_log2_self
    have hcast : ((n.log2 : Int) + 1) = ((n.log2 + 1 : Nat) : Int) := by push_cast; rfl
    rw [hcast, zpow_natCast]; exact_mod_cast this
  have hd1 : (2 : ℚ) ^ (d.log2 : Int) ≤ d := by
    rw [zpow_natCast]; exact_mod_cast Nat.log2_self_le hd.ne'
  have hd2 : (d : ℚ) < 2 ^ ((d.log2 : Int) + 1) := by
    have : d < 2 ^ (d.log2 + 1) := Nat.lt_log2_self
    have hcast : ((d.log2 : Int) + 1) = ((d.log2 + 1 : Nat) : Int) := by push_cast; rfl
    rw [hcast, zpow_natCast]; exact_mod_cast this
  have hsnd := scaleDown_snd_pos (n := n) (b := 2) (by decide) ((n.log2 : Int) - d.log2) hd
  have hratio := ratio_scaleDown (b := 2) (by decide) ((n.log2 : Int) - d.log2) n d
  -- From `2 ^ a ≤ n` and `d < 2 ^ (b + 1)`, and the other way round.
  have hlow : (2 : ℚ) ^ ((n.log2 : Int) - d.log2 - 1) ≤ (n : ℚ) / d := by
    rw [le_div_iff₀ hdq]
    calc (2 : ℚ) ^ ((n.log2 : Int) - d.log2 - 1) * d
        ≤ 2 ^ ((n.log2 : Int) - d.log2 - 1) * 2 ^ ((d.log2 : Int) + 1) := by gcongr
      _ = 2 ^ (n.log2 : Int) := by rw [← zpow_add₀ two_ne_zero]; congr 1; ring
      _ ≤ n := hn1
  have hhigh : (n : ℚ) / d < 2 ^ ((n.log2 : Int) - d.log2 + 1) := by
    rw [div_lt_iff₀ hdq]
    calc (n : ℚ) < 2 ^ ((n.log2 : Int) + 1) := hn2
      _ = 2 ^ ((n.log2 : Int) - d.log2 + 1) * 2 ^ (d.log2 : Int) := by
        rw [← zpow_add₀ two_ne_zero]; congr 1; ring
      _ ≤ 2 ^ ((n.log2 : Int) - d.log2 + 1) * d := by gcongr
  have hpow : (0 : ℚ) < 2 ^ ((n.log2 : Int) - d.log2) := by positivity
  have hsndq : (0 : ℚ) < (scaleDown 2 ((n.log2 : Int) - d.log2) n d).2 := by exact_mod_cast hsnd
  have hiff : (scaleDown 2 ((n.log2 : Int) - d.log2) n d).1 <
      (scaleDown 2 ((n.log2 : Int) - d.log2) n d).2 ↔
        (n : ℚ) / d < 2 ^ ((n.log2 : Int) - d.log2) := by
    rw [← Nat.cast_lt (α := ℚ), ← div_lt_one hsndq, hratio]
    push_cast
    rw [div_lt_one hpow]
  unfold magnitude
  simp only [hiff]
  split
  · rename_i hlt
    exact ⟨hlow, hlt⟩
  · rename_i hge
    refine ⟨?_, hhigh⟩
    rw [add_sub_cancel_right]
    exact not_lt.mp hge

end Quotient

namespace Binary

variable {f : BinaryFormat} {x : Binary f}

/-! ## The interval of a number -/

/-- A quarter of the last place. -/
def quarter (x : Binary f) : ℚ := 2 ^ (x.exponent - 2)

/-- The values that are read as `x`: those between the halfway points to the two neighbours. -/
structure Rounds (x : Binary f) (v : ℚ) : Prop where
  low : x.lowQuarter * x.quarter ≤ v
  high : v ≤ x.highQuarter * x.quarter
  /-- A halfway point itself goes to the even mantissa. -/
  tie : x.mantissa % 2 = 0 ∨ x.lowQuarter * x.quarter < v ∧ v < x.highQuarter * x.quarter

theorem quarter_pos (x : Binary f) : 0 < x.quarter := by
  unfold quarter
  positivity

theorem four_mul_quarter (x : Binary f) : 4 * x.quarter = 2 ^ x.exponent := by
  have h : x.exponent = 2 + (x.exponent - 2) := by ring
  unfold quarter
  conv_rhs => rw [h, zpow_add₀ two_ne_zero]
  norm_num

/-- The number lies in its own interval. -/
theorem rounds_self (x : Binary f) : Rounds x (x.mantissa * 2 ^ x.exponent) := by
  have hq := x.quarter_pos
  have hself : (x.mantissa : ℚ) * 2 ^ x.exponent = (4 * x.mantissa : ℕ) * x.quarter := by
    rw [← x.four_mul_quarter]
    push_cast
    ring
  have hlow : x.lowQuarter ≤ 4 * x.mantissa := by
    unfold lowQuarter
    split <;> omega
  have hhigh : 4 * x.mantissa < x.highQuarter := by
    unfold highQuarter
    omega
  have hhighq : ((4 * x.mantissa : ℕ) : ℚ) * x.quarter < x.highQuarter * x.quarter := by
    gcongr
  rw [hself]
  refine ⟨by gcongr, hhighq.le, ?_⟩
  by_cases hzero : x.mantissa = 0
  · exact .inl (by rw [hzero])
  · have hlow' : x.lowQuarter < 4 * x.mantissa := by
      unfold lowQuarter
      split <;> omega
    exact .inr ⟨by gcongr, hhighq⟩

/-! ## The value of a decimal number -/

theorem pow_three_mul (k : Int) : (2 : ℚ) ^ (3 * k) = 8 ^ k := by
  rw [zpow_mul]
  norm_num

/-- A decimal number as the quotient that is rounded. -/
theorem ratio_absValue (d : Decimal) : ((scaleDown 10 (-d.exponent) d.digits 1).1 : ℚ) /
    (scaleDown 10 (-d.exponent) d.digits 1).2 = d.absValue := by
  rw [ratio_scaleDown (b := 10) (by decide), Decimal.absValue]
  push_cast
  rw [div_one, zpow_neg, div_inv_eq_mul]

/-- The numerator is positive with the digits. -/
theorem scaleDown_fst_pos {n d : Nat} (e : Int) (hn : 0 < n) : 0 < (scaleDown 10 e n d).1 := by
  unfold scaleDown
  split
  · exact hn
  · exact Nat.mul_pos hn (Nat.pow_pos (by decide))

section Places

variable {d : Decimal} {places : Int}

/-- A number with many places is large. -/
theorem pow_le_absValue (hdigits : d.digits ≠ 0)
    (hplaces : d.exponent + (Nat.toDigits 10 d.digits).length = places) (hpos : 0 < places) :
    (2 : ℚ) ^ (3 * (places - 1)) ≤ d.absValue := by
  calc (2 : ℚ) ^ (3 * (places - 1)) = 8 ^ (places - 1) := pow_three_mul _
    _ ≤ 10 ^ (places - 1) := zpow_le_zpow_left₀ (by omega) (by norm_num) (by norm_num)
    _ ≤ d.absValue := hplaces ▸ (Decimal.absValue_bounds hdigits).1

/-- A number whose first place is far behind the point is small. -/
theorem absValue_lt_pow (hdigits : d.digits ≠ 0)
    (hplaces : d.exponent + (Nat.toDigits 10 d.digits).length = places) (hneg : places ≤ 0) :
    d.absValue < 2 ^ (3 * places) := by
  calc d.absValue < 10 ^ places := hplaces ▸ (Decimal.absValue_bounds hdigits).2
    _ ≤ 8 ^ places := by
      rw [← inv_le_inv₀ (by positivity) (by positivity), ← zpow_neg, ← zpow_neg]
      exact zpow_le_zpow_left₀ (by omega) (by norm_num) (by norm_num)
    _ = 2 ^ (3 * places) := (pow_three_mul _).symm

end Places

/-! ## Writing -/

/-- The two units stand to each other as `10 ^ g` to a quarter of the last place. -/
theorem gridUnits_spec (x : Binary f) (g : Int) :
    ∃ w : ℚ, 0 < w ∧ ((x.gridUnits g).1 : ℚ) = 10 ^ g * w ∧
      ((x.gridUnits g).2 : ℚ) = x.quarter * w := by
  have htwo := ratio_scaleDown (b := 2) (by decide) (2 - x.exponent) 1 1
  have hten := ratio_scaleDown (b := 10) (by decide) (-g) 1 1
  have hs := scaleDown_snd_pos (n := 1) (b := 2) (by decide) (2 - x.exponent) Nat.one_pos
  have hr := scaleDown_snd_pos (n := 1) (b := 10) (by decide) (-g) Nat.one_pos
  unfold gridUnits quarter
  generalize scaleDown 2 (2 - x.exponent) 1 1 = qs at *
  generalize scaleDown 10 (-g) 1 1 = pr at *
  have hsq : (0 : ℚ) < qs.2 := by exact_mod_cast hs
  have hrq : (0 : ℚ) < pr.2 := by exact_mod_cast hr
  rw [div_eq_iff hsq.ne'] at htwo
  rw [div_eq_iff hrq.ne'] at hten
  push_cast at htwo hten
  rw [div_one, one_div, ← zpow_neg, neg_sub] at htwo
  rw [div_one, one_div, ← zpow_neg, neg_neg] at hten
  refine ⟨qs.2 * pr.2, mul_pos hsq hrq, ?_, ?_⟩
  · push_cast
    rw [hten]
    ring
  · push_cast
    rw [htwo]
    ring

/-- A grid point that is taken lies in the interval. -/
theorem rounds_of_gridPoint? {g : Int} {n : Nat} (h : x.gridPoint? g = some n) :
    Rounds x (n * 10 ^ g) := by
  obtain ⟨w, hw, hten, hquarter⟩ := x.gridUnits_spec g
  have hinside : (if x.mantissa % 2 = 0 then
      x.lowQuarter * (x.gridUnits g).2 ≤ n * (x.gridUnits g).1 ∧
        n * (x.gridUnits g).1 ≤ x.highQuarter * (x.gridUnits g).2
    else x.lowQuarter * (x.gridUnits g).2 < n * (x.gridUnits g).1 ∧
        n * (x.gridUnits g).1 < x.highQuarter * (x.gridUnits g).2) := by
    unfold gridPoint? at h
    grind
  have hle : ∀ a b : Nat, a * (x.gridUnits g).2 ≤ b * (x.gridUnits g).1 ↔
      (a : ℚ) * x.quarter ≤ b * 10 ^ g := by
    intro a b
    rw [← Nat.cast_le (α := ℚ)]
    push_cast
    rw [hten, hquarter, ← mul_assoc, ← mul_assoc, mul_le_mul_iff_left₀ hw]
  have hge : ∀ a b : Nat, b * (x.gridUnits g).1 ≤ a * (x.gridUnits g).2 ↔
      (b : ℚ) * 10 ^ g ≤ a * x.quarter := by
    intro a b
    rw [← Nat.cast_le (α := ℚ)]
    push_cast
    rw [hten, hquarter, ← mul_assoc, ← mul_assoc, mul_le_mul_iff_left₀ hw]
  by_cases heven : x.mantissa % 2 = 0
  · rw [if_pos heven] at hinside
    exact ⟨(hle _ _).mp hinside.1, (hge _ _).mp hinside.2, .inl heven⟩
  · rw [if_neg heven] at hinside
    have hlow := not_le.mp ((hge _ _).not.mp (not_le.mpr hinside.1))
    have hhigh := not_le.mp ((hle _ _).not.mp (not_le.mpr hinside.2))
    exact ⟨hlow.le, hhigh.le, .inr ⟨hlow, hhigh⟩⟩

/-- Where neither the exponent nor a point is left, the number itself is on the grid. -/
theorem searchGrids_exact {g : Int} (hg : g ≤ x.exponent) (hg0 : g ≤ 0) :
    ((x.searchGrids 0 g).1 : ℚ) * 10 ^ (x.searchGrids 0 g).2 = x.mantissa * 2 ^ x.exponent := by
  obtain ⟨w, hw, hten, hquarter⟩ := x.gridUnits_spec g
  -- `2 ^ exponent` is the multiple `2 ^ (exponent - g) · 5 ^ -g` of `10 ^ g`.
  have hpow : (2 : ℚ) ^ x.exponent = 2 ^ (x.exponent - g).toNat * 5 ^ (-g).toNat * 10 ^ g := by
    have h1 : (2 : ℚ) ^ (x.exponent - g).toNat = 2 ^ x.exponent * 2 ^ (-g) := by
      rw [← zpow_natCast, Int.toNat_of_nonneg (by omega), sub_eq_add_neg,
        zpow_add₀ two_ne_zero]
    have h2 : (5 : ℚ) ^ (-g).toNat = 5 ^ (-g) := by
      rw [← zpow_natCast, Int.toNat_of_nonneg (by omega)]
    rw [h1, h2, mul_assoc _ _ ((5 : ℚ) ^ (-g)), ← mul_zpow, mul_assoc, zpow_neg]
    norm_num [zpow_ne_zero]
  have hdiv : 4 * x.mantissa * (x.gridUnits g).2 =
      x.mantissa * (2 ^ (x.exponent - g).toNat * 5 ^ (-g).toNat) * (x.gridUnits g).1 := by
    rw [← Nat.cast_inj (R := ℚ)]
    push_cast
    rw [hten, hquarter]
    calc (4 * x.mantissa * (x.quarter * w) : ℚ) = x.mantissa * (4 * x.quarter) * w := by ring
      _ = _ := by rw [x.four_mul_quarter, hpow]; ring
  have hunit : 0 < (x.gridUnits g).1 := by
    have : (0 : ℚ) < (x.gridUnits g).1 := by rw [hten]; positivity
    exact_mod_cast this
  simp only [searchGrids, hdiv, Nat.mul_div_cancel _ hunit, hpow]
  push_cast
  ring

/-- **The search ends inside the interval**, whether it finds a point or reaches the grid of the
number itself. -/
theorem rounds_searchGrids {fuel : Nat} {g : Int} (hg : g - fuel ≤ min x.exponent 0) :
    Rounds x ((x.searchGrids fuel g).1 * 10 ^ (x.searchGrids fuel g).2) := by
  induction fuel generalizing g with
  | zero =>
    rw [searchGrids_exact (by omega) (by omega)]
    exact rounds_self x
  | succ fuel ih =>
    unfold searchGrids
    split
    · rename_i n hn
      exact rounds_of_gridPoint? hn
    · exact ih (by push_cast at hg; omega)

theorem rounds_shortest (x : Binary f) : Rounds x x.shortest.absValue :=
  rounds_searchGrids (by omega)

/-- **What is written of a number has its sign and lies in its interval.** -/
theorem format_rounds (x : Binary f) :
    ∃ d : Decimal, x.format = d.render ∧ d.negative = x.negative ∧ Rounds x d.absValue := by
  by_cases hx : x.mantissa = 0
  · refine ⟨⟨x.negative, 0, 0⟩, by rw [format, if_pos hx], rfl, ?_⟩
    have hzero : (Decimal.mk x.negative 0 0).absValue = x.mantissa * 2 ^ x.exponent := by
      simp [Decimal.absValue, hx]
    rw [hzero]
    exact rounds_self x
  · exact ⟨x.shortest, by rw [format, if_neg hx], rfl, rounds_shortest x⟩

end Binary

end CimStore

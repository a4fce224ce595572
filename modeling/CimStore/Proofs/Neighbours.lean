import CimStore.Proofs.Rounding

/-!
# Neighbouring binary numbers

How far apart the numbers of a binary format are, and which of them is nearest to a value:

* `Binary.lt_cases`: of two numbers the larger one has the larger exponent, or the same exponent
  and the larger mantissa;
* `Binary.high_le_middle`, `Binary.middle_le_low`: the ends of the interval of a number do not reach
  beyond the middle between it and any other number;
* `Binary.Rounds.isClosest`: so a number is nearest to the values of its interval;
* `Binary.IsClosest.unique`: no two numbers are nearest to one value, as of two equally near ones
  not both have an even mantissa;
* `BinaryFormat.overflows_iff`: the values for which the next power of two would be nearest.
-/

namespace CimStore

/-- A format with a last place to round to, and with numbers up to one at least. -/
structure BinaryFormat.IsProper (f : BinaryFormat) : Prop where
  two_le_precision : 2 ≤ f.precision
  min_le_max : f.minExponent ≤ f.maxExponent
  range : 0 ≤ f.maxExponent + f.precision

theorem binary64_isProper : binary64.IsProper := ⟨by decide, by decide, by decide⟩

section Distance

variable {a b v : ℚ}

/-- Of two numbers the larger one is nearer from their middle on. -/
theorem abs_sub_le_abs_sub_iff (h : a < b) : |b - v| ≤ |a - v| ↔ a + b ≤ 2 * v := by
  rcases abs_cases (b - v) with ⟨hb, hb'⟩ | ⟨hb, hb'⟩ <;>
    rcases abs_cases (a - v) with ⟨ha, ha'⟩ | ⟨ha, ha'⟩ <;> rw [ha, hb] <;>
    constructor <;> intro h' <;> linarith

/-- Up to their middle the smaller one is. -/
theorem abs_sub_le_abs_sub_iff' (h : a < b) : |a - v| ≤ |b - v| ↔ 2 * v ≤ a + b := by
  rcases abs_cases (b - v) with ⟨hb, hb'⟩ | ⟨hb, hb'⟩ <;>
    rcases abs_cases (a - v) with ⟨ha, ha'⟩ | ⟨ha, ha'⟩ <;> rw [ha, hb] <;>
    constructor <;> intro h' <;> linarith

end Distance

namespace Binary

variable {f : BinaryFormat} {x y : Binary f} {v : ℚ}

/-- The number without its sign. -/
def size (x : Binary f) : ℚ := x.mantissa * 2 ^ x.exponent

theorem size_eq_quarters (x : Binary f) : x.size = 4 * x.mantissa * x.quarter := by
  rw [size, ← x.four_mul_quarter]
  ring

theorem high_eq (x : Binary f) : x.highQuarter * x.quarter = x.size + 2 * x.quarter := by
  rw [size_eq_quarters, highQuarter]
  push_cast
  ring

theorem precision_pos (hx : 0 < x.mantissa) : 0 < f.precision := by
  have hlt := x.mantissa_lt
  rw [Nat.pow_eq] at hlt
  by_contra hp
  rw [Nat.eq_zero_of_not_pos hp, pow_zero] at hlt
  omega

theorem mantissa_succ_le (x : Binary f) : (x.mantissa + 1 : ℚ) ≤ 2 ^ f.precision := by
  have h : x.mantissa + 1 ≤ 2 ^ f.precision := x.mantissa_lt
  exact_mod_cast h

/-! ## Order and gaps -/

/-- What is written with a smaller exponent is smaller, by half a last place of the larger number at
least. -/
theorem add_le_of_exponent_lt (h : x.exponent < y.exponent) :
    x.size + 2 * y.quarter ≤ 2 ^ (f.precision - 1) * (4 * y.quarter) ∧
      2 ^ (f.precision - 1) ≤ y.mantissa := by
  have hcanon : 2 ^ (f.precision - 1) ≤ y.mantissa :=
    y.canonical.resolve_right (by have := x.le_exponent; omega)
  have hpos := precision_pos (lt_of_lt_of_le (by positivity) hcanon)
  have hhalf : (2 : ℚ) ^ (y.exponent - 1) = 2 * y.quarter := by
    rw [show y.exponent - 1 = 1 + (y.exponent - 2) by ring, zpow_add₀ two_ne_zero, zpow_one,
      quarter]
  have hsize : x.size ≤ x.mantissa * (2 * y.quarter) := by
    rw [size, ← hhalf]
    gcongr
    · norm_num
    · omega
  have htwo : (2 : ℚ) ^ f.precision = 2 * 2 ^ (f.precision - 1) := by
    rw [← pow_succ', Nat.sub_add_cancel hpos]
  refine ⟨?_, hcanon⟩
  calc x.size + 2 * y.quarter ≤ (x.mantissa + 1) * (2 * y.quarter) := by linarith
    _ ≤ 2 ^ f.precision * (2 * y.quarter) :=
      mul_le_mul_of_nonneg_right x.mantissa_succ_le (by linarith [y.quarter_pos])
    _ = 2 ^ (f.precision - 1) * (4 * y.quarter) := by rw [htwo]; ring

theorem size_lt_of_exponent_lt (h : x.exponent < y.exponent) : x.size < y.size := by
  obtain ⟨hle, hcanon⟩ := add_le_of_exponent_lt h
  have hcanonq : (2 : ℚ) ^ (f.precision - 1) ≤ y.mantissa := by exact_mod_cast hcanon
  have hq := y.quarter_pos
  have := mul_le_mul_of_nonneg_right hcanonq (by linarith : 0 ≤ 4 * y.quarter)
  rw [y.size_eq_quarters]
  linarith

/-- **The order of the numbers** is that of their exponents, and of their mantissas where these are
the same. -/
theorem lt_cases (h : x.size < y.size) :
    x.exponent < y.exponent ∨ x.exponent = y.exponent ∧ x.mantissa < y.mantissa := by
  rcases lt_trichotomy x.exponent y.exponent with hlt | heq | hgt
  · exact .inl hlt
  · refine .inr ⟨heq, ?_⟩
    rw [size, size, heq, mul_lt_mul_iff_left₀ (by positivity)] at h
    exact_mod_cast h
  · exact absurd h (size_lt_of_exponent_lt hgt).not_gt

/-- Numbers of one size are written alike. -/
theorem eq_of_size_eq (h : x.size = y.size) :
    x.mantissa = y.mantissa ∧ x.exponent = y.exponent := by
  have hexp : x.exponent = y.exponent := by
    rcases lt_trichotomy x.exponent y.exponent with hlt | heq | hgt
    · exact absurd h (size_lt_of_exponent_lt hlt).ne
    · exact heq
    · exact absurd h (size_lt_of_exponent_lt hgt).ne'
  refine ⟨?_, hexp⟩
  rw [size, size, hexp, mul_left_inj' (by positivity)] at h
  exact_mod_cast h

/-- The next larger number is a last place away. -/
theorem size_add_le (h : x.size < y.size) : x.size + 4 * x.quarter ≤ y.size := by
  have hle : x.exponent ≤ y.exponent := by
    rcases lt_cases h with hlt | ⟨heq, -⟩
    · exact hlt.le
    · exact heq.le
  -- Both are multiples of the last place of the smaller one.
  have hmultiple : y.size = (y.mantissa * 2 ^ (y.exponent - x.exponent).toNat : ℕ) *
      (4 * x.quarter) := by
    rw [size, x.four_mul_quarter]
    push_cast
    rw [← zpow_natCast, Int.toNat_of_nonneg (by omega), mul_assoc, ← zpow_add₀ two_ne_zero,
      sub_add_cancel]
  have hq : 0 < 4 * x.quarter := by linarith [x.quarter_pos]
  have hsize : x.size = x.mantissa * (4 * x.quarter) := by
    rw [size_eq_quarters]
    ring
  rw [hmultiple, hsize, mul_lt_mul_iff_left₀ hq] at h
  rw [hmultiple, hsize]
  have hsucc : (x.mantissa : ℚ) + 1 ≤
      (y.mantissa * 2 ^ (y.exponent - x.exponent).toNat : ℕ) := by
    have : x.mantissa < y.mantissa * 2 ^ (y.exponent - x.exponent).toNat := by exact_mod_cast h
    exact_mod_cast this
  linarith [mul_le_mul_of_nonneg_right hsucc hq.le]

/-- The interval of a number ends at the middle to the next larger one. -/
theorem high_le_middle (h : x.size < y.size) :
    2 * (x.highQuarter * x.quarter) ≤ x.size + y.size := by
  rw [high_eq]
  linarith [size_add_le h]

theorem four_mul_le_low (y : Binary f) : (4 * y.mantissa : ℚ) ≤ y.lowQuarter + 2 := by
  have h : 4 * y.mantissa ≤ y.lowQuarter + 2 := by
    unfold lowQuarter
    split <;> omega
  exact_mod_cast h

/-- The interval of a number begins at the middle to the next smaller one. -/
theorem middle_le_low (h : x.size < y.size) :
    x.size + y.size ≤ 2 * (y.lowQuarter * y.quarter) := by
  have hq := y.quarter_pos
  have hlow := mul_le_mul_of_nonneg_right y.four_mul_le_low hq.le
  rw [y.size_eq_quarters]
  rcases lt_cases h with hlt | ⟨heq, -⟩
  · obtain ⟨hle, hcanon⟩ := add_le_of_exponent_lt hlt
    by_cases hpow : y.mantissa = 2 ^ (f.precision - 1)
    · -- Below a power of two the next smaller number is only half as far away.
      have hlow : y.lowQuarter + 1 = 4 * y.mantissa := by
        have := Nat.one_le_two_pow (n := f.precision - 1)
        rw [lowQuarter, if_pos (by simp [hpow, lt_of_le_of_lt x.le_exponent hlt])]
        omega
      have hlowq : (y.lowQuarter : ℚ) = 4 * y.mantissa - 1 := by
        have : (y.lowQuarter + 1 : ℚ) = 4 * y.mantissa := by exact_mod_cast hlow
        linarith
      have hpowq : (y.mantissa : ℚ) = 2 ^ (f.precision - 1) := by exact_mod_cast hpow
      rw [← hpowq] at hle
      rw [hlowq]
      linarith
    · have hsucc : (2 ^ (f.precision - 1) + 1 : ℚ) ≤ y.mantissa := by
        have : 2 ^ (f.precision - 1) + 1 ≤ y.mantissa := by omega
        exact_mod_cast this
      have := mul_le_mul_of_nonneg_right hsucc hq.le
      linarith
  · have hquarter : x.quarter = y.quarter := by rw [quarter, quarter, heq]
    have hgap := size_add_le h
    rw [hquarter, y.size_eq_quarters] at hgap
    linarith

/-! ## The nearest number -/

/-- No number is nearer to `v` in size, and none but this one is as near if its mantissa is odd. -/
structure IsClosest (x : Binary f) (v : ℚ) : Prop where
  nearest : ∀ y : Binary f, |x.size - v| ≤ |y.size - v|
  tie : ∀ y : Binary f, |y.size - v| = |x.size - v| → y.size = x.size ∨ x.mantissa % 2 = 0

/-- **A number is nearest to the values of its interval.** -/
theorem Rounds.isClosest (h : Rounds x v) : x.IsClosest v := by
  -- A value as near to another number is at an end of the interval.
  have hcompare : ∀ y : Binary f, y.size ≠ x.size → |x.size - v| ≤ |y.size - v| ∧
      (|y.size - v| = |x.size - v| → x.mantissa % 2 = 0) := by
    intro y hne
    rcases lt_or_gt_of_ne hne with hlt | hgt
    · have hmiddle := middle_le_low hlt
      refine ⟨(abs_sub_le_abs_sub_iff hlt).mpr (by linarith [h.low]), fun heq => ?_⟩
      refine h.tie.resolve_right fun hstrict => ?_
      have := (abs_sub_le_abs_sub_iff' hlt).mp heq.le
      linarith [hstrict.1]
    · have hmiddle := high_le_middle hgt
      refine ⟨(abs_sub_le_abs_sub_iff' hgt).mpr (by linarith [h.high]), fun heq => ?_⟩
      refine h.tie.resolve_right fun hstrict => ?_
      have := (abs_sub_le_abs_sub_iff hgt).mp heq.le
      linarith [hstrict.2]
  constructor
  · intro y
    by_cases hsame : y.size = x.size
    · rw [hsame]
    · exact (hcompare y hsame).1
  · intro y heq
    by_cases hsame : y.size = x.size
    · exact .inl hsame
    · exact .inr ((hcompare y hsame).2 heq)

/-- Behind a number with an even mantissa there is a number with an odd one. -/
theorem exists_next (heven : x.mantissa % 2 = 0) (hp : 0 < f.precision) :
    ∃ y : Binary f, y.mantissa = x.mantissa + 1 ∧ y.size = x.size + 4 * x.quarter := by
  have hlt : x.mantissa + 1 < Nat.pow 2 f.precision := by
    have hne : x.mantissa + 1 ≠ Nat.pow 2 f.precision := fun heq => by
      have := Nat.two_dvd_ne_zero.mpr (show (x.mantissa + 1) % 2 = 1 by omega)
      rw [heq, Nat.pow_eq] at this
      exact this (dvd_pow_self 2 hp.ne')
    have := x.mantissa_lt
    omega
  refine ⟨⟨x.negative, x.mantissa + 1, x.exponent, hlt, x.le_exponent, x.exponent_le,
    x.canonical.imp_left fun h => h.trans (Nat.le_succ _)⟩, rfl, ?_⟩
  rw [size, size, x.four_mul_quarter]
  push_cast
  ring

/-- **No two numbers are nearest to one value.** -/
theorem IsClosest.unique (hx : x.IsClosest v) (hy : y.IsClosest v) : x.size = y.size := by
  -- Of two, both would have an even mantissa, and a number between them would be nearer.
  have hordered : ∀ a b : Binary f, a.IsClosest v → b.IsClosest v → ¬a.size < b.size := by
    intro a b ha hb hlt
    have hsame : |b.size - v| = |a.size - v| := (hb.nearest a).antisymm (ha.nearest b)
    have ha2 := (ha.tie b hsame).resolve_left hlt.ne'
    have hb2 := (hb.tie a hsame.symm).resolve_left hlt.ne
    have hlow := (abs_sub_le_abs_sub_iff hlt).mp hsame.le
    have hpos : 0 < b.mantissa := by
      rcases lt_cases hlt with hexp | ⟨-, hmant⟩
      · exact lt_of_lt_of_le (by positivity) (add_le_of_exponent_lt hexp).2
      · omega
    obtain ⟨c, hmant, hsize⟩ := exists_next ha2 (precision_pos hpos)
    have hc : c.size < b.size := by
      refine lt_of_le_of_ne (hsize ▸ size_add_le hlt) fun heq => ?_
      have := (eq_of_size_eq heq).1
      omega
    have hac : a.size < c.size := by linarith [a.quarter_pos]
    have := (abs_sub_le_abs_sub_iff' hac).mp (ha.nearest c)
    linarith
  exact le_antisymm (not_lt.mp (hordered y x hy hx)) (not_lt.mp (hordered x y hx hy))

/-! ## The range -/

/-- The largest number of the format. -/
def greatest (hf : f.IsProper) : Binary f where
  negative := false
  mantissa := 2 ^ f.precision - 1
  exponent := f.maxExponent
  mantissa_lt := Nat.sub_lt (Nat.two_pow_pos _) Nat.one_pos
  le_exponent := hf.min_le_max
  exponent_le := le_refl _
  canonical := by
    have hp := hf.two_le_precision
    have htwo : 2 ^ f.precision = 2 * 2 ^ (f.precision - 1) := by
      rw [← pow_succ', Nat.sub_add_cancel (by omega)]
    have := Nat.one_le_two_pow (n := f.precision - 1)
    exact .inl (by rw [Nat.pow_eq]; omega)

end Binary

namespace BinaryFormat

variable {f : BinaryFormat} {v : ℚ}

/-- The power of two that would follow the largest number. -/
def top (f : BinaryFormat) : ℚ := 2 ^ (f.precision + f.maxExponent)

/-- The power of two behind the largest number is as near to `v` as any number. -/
def Overflows (f : BinaryFormat) (v : ℚ) : Prop := ∀ y : Binary f, |f.top - v| ≤ |y.size - v|

theorem top_eq (f : BinaryFormat) : f.top = 2 ^ f.precision * 2 ^ f.maxExponent := by
  rw [top, zpow_add₀ two_ne_zero, zpow_natCast]

theorem size_greatest (hf : f.IsProper) :
    (Binary.greatest hf).size = f.top - 2 ^ f.maxExponent := by
  have hone : 1 ≤ 2 ^ f.precision := Nat.one_le_two_pow
  rw [top_eq, Binary.size, Binary.greatest]
  push_cast [hone]
  ring

theorem size_le_greatest (x : Binary f) : x.size ≤ f.top - 2 ^ f.maxExponent := by
  have hexp : (2 : ℚ) ^ x.exponent ≤ 2 ^ f.maxExponent :=
    zpow_le_zpow_right₀ one_le_two x.exponent_le
  have hsucc := mul_le_mul_of_nonneg_right x.mantissa_succ_le
    (by positivity : (0 : ℚ) ≤ 2 ^ f.maxExponent)
  have hsize : x.size ≤ x.mantissa * 2 ^ f.maxExponent := by
    unfold Binary.size
    gcongr
  rw [top_eq]
  linarith

/-- **A value overflows from the middle on** between the largest number and the next power of
two. -/
theorem overflows_iff (hf : f.IsProper) :
    f.Overflows v ↔ 2 * f.top - 2 ^ f.maxExponent ≤ 2 * v := by
  have hpos : (0 : ℚ) < 2 ^ f.maxExponent := by positivity
  constructor
  · intro h
    have hlt : (Binary.greatest hf).size < f.top := by rw [size_greatest]; linarith
    have := (abs_sub_le_abs_sub_iff hlt).mp (h _)
    rw [size_greatest] at this
    linarith
  · intro h y
    have hle := size_le_greatest y
    exact (abs_sub_le_abs_sub_iff (by linarith)).mpr (by linarith)

end BinaryFormat

/-- The values of an interval do not overflow. -/
theorem Binary.Rounds.not_overflows {f : BinaryFormat} {x : Binary f} {v : ℚ} (hf : f.IsProper)
    (h : Rounds x v) : ¬f.Overflows v := by
  have hexp : (2 : ℚ) ^ x.exponent ≤ 2 ^ f.maxExponent :=
    zpow_le_zpow_right₀ one_le_two x.exponent_le
  have hpos : (0 : ℚ) < 2 ^ f.maxExponent := by positivity
  have hhigh : 2 * (x.highQuarter * x.quarter) ≤ (2 * x.mantissa + 1) * 2 ^ f.maxExponent := by
    calc 2 * (x.highQuarter * x.quarter) = (2 * x.mantissa + 1) * 2 ^ x.exponent := by
          rw [high_eq, size, ← x.four_mul_quarter]; ring
      _ ≤ (2 * x.mantissa + 1) * 2 ^ f.maxExponent := by gcongr
  rw [BinaryFormat.overflows_iff hf, not_le, BinaryFormat.top_eq]
  have hlast := x.mantissa_succ_le
  rcases hlast.eq_or_lt with heq | hlt
  · -- The largest mantissa is odd, so the end of the interval is not in it.
    have hodd : x.mantissa % 2 ≠ 0 := fun heven => by
      have hnat : x.mantissa + 1 = 2 ^ f.precision := by exact_mod_cast heq
      have := dvd_pow_self 2 (show f.precision ≠ 0 by have := hf.two_le_precision; omega)
      omega
    have hstrict := (h.tie.resolve_left hodd).2
    rw [← heq]
    linarith
  · have hnat : x.mantissa + 1 < 2 ^ f.precision := by exact_mod_cast hlt
    have hgap : (x.mantissa + 2 : ℚ) ≤ 2 ^ f.precision := by exact_mod_cast hnat
    have := mul_le_mul_of_nonneg_right hgap hpos.le
    linarith [h.high]

end CimStore

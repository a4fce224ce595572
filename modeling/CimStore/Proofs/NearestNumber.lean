import CimStore.Proofs.Neighbours
import CimStore.Proofs.Numerals

/-!
# Numbers read from any text

`Binary.parse?` reads the numerals and nothing else, each as the nearest number of the format, and
what would be too large as no number at all:

* `Binary.settles_ofRatio?`, `Binary.settles_nearest?`: a decimal number lies in the interval of
  the number that it is read as, or it overflows;
* `Binary.IsNearest`: the number is nearest to a decimal number, with its sign;
* `Binary.nearest?_eq_some_iff`, `Binary.nearest?_eq_none_iff`: what a decimal number is read as;
* `Binary.parse?_format`: a number comes back as itself, a zero with its sign;
* `Binary.reads_exactly`: what is written reads back, and what is read is nearest.
-/

namespace CimStore

namespace Decimal

/-- The number with its sign. -/
def value (d : Decimal) : ℚ := if d.negative then -d.absValue else d.absValue

theorem absValue_nonneg (d : Decimal) : 0 ≤ d.absValue := by
  unfold absValue
  positivity

end Decimal

namespace Binary

variable {f : BinaryFormat} {x : Binary f} {d : Decimal}

/-! ## Reading a quotient -/

/-- What is read is in the interval or overflows. -/
def Settles (negative : Bool) (v : ℚ) (result : Option (Binary f)) : Prop :=
  (∃ x, result = some x ∧ x.negative = negative ∧ Rounds x v) ∨ result = none ∧ f.Overflows v

/-- The parts of a number make the number. -/
theorem ofParts?_cases (negative : Bool) {m : Nat} {e : Int} (hm : m < 2 ^ f.precision)
    (hlow : f.minExponent ≤ e) (hcanon : 2 ^ (f.precision - 1) ≤ m ∨ e = f.minExponent) :
    (∃ x : Binary f, ofParts? f negative m e = some x ∧ x.negative = negative ∧ x.mantissa = m ∧
      x.exponent = e) ∨ ofParts? f negative m e = none ∧ f.maxExponent < e := by
  unfold ofParts?
  by_cases hhigh : e ≤ f.maxExponent
  · exact .inl ⟨_, dif_pos ⟨hm, hlow, hhigh, hcanon⟩, rfl, rfl, rfl⟩
  · exact .inr ⟨dif_neg fun h => hhigh h.2.2.1, not_le.mp hhigh⟩

/-- A value is in the interval of the number whose mantissa it rounds to. Below a power of two the
interval is shorter. -/
theorem rounds_of_roundDiv {v : ℚ} (hp : 2 ≤ f.precision) (hv : 0 ≤ v)
    (hlow : (x.mantissa - 1 / 2 : ℚ) * 2 ^ x.exponent ≤ v)
    (hhigh : v ≤ (x.mantissa + 1 / 2 : ℚ) * 2 ^ x.exponent)
    (htie : x.mantissa % 2 = 0 ∨ (x.mantissa - 1 / 2 : ℚ) * 2 ^ x.exponent < v ∧
      v < (x.mantissa + 1 / 2 : ℚ) * 2 ^ x.exponent)
    (hpower : f.minExponent < x.exponent →
      (2 ^ (f.precision - 1) - 1 / 4 : ℚ) * 2 ^ x.exponent ≤ v) : Rounds x v := by
  have hhigh_eq : x.highQuarter * x.quarter = (x.mantissa + 1 / 2 : ℚ) * 2 ^ x.exponent := by
    rw [high_eq, size, ← x.four_mul_quarter]
    ring
  rw [← hhigh_eq] at hhigh htie
  by_cases hpow : x.mantissa = 2 ^ (f.precision - 1) ∧ f.minExponent < x.exponent
  · have heven : x.mantissa % 2 = 0 := by
      rw [hpow.1]
      exact Nat.mod_eq_zero_of_dvd (dvd_pow_self 2 (by omega))
    have hlow_eq : x.lowQuarter = 4 * x.mantissa - 1 := by
      rw [lowQuarter, if_pos (by simp [hpow])]
    have hends : x.lowQuarter * x.quarter =
        (2 ^ (f.precision - 1) - 1 / 4 : ℚ) * 2 ^ x.exponent := by
      have hone := Nat.one_le_two_pow (n := f.precision - 1)
      rw [hlow_eq, Nat.cast_sub (by omega), hpow.1, ← x.four_mul_quarter]
      push_cast
      ring
    exact ⟨hends ▸ hpower hpow.2, hhigh, .inl heven⟩
  · have hlow_eq : x.lowQuarter = 4 * x.mantissa - 2 := by
      rw [lowQuarter, if_neg (by simpa using hpow)]
    by_cases hzero : x.mantissa = 0
    · exact ⟨by simpa [hlow_eq, hzero] using hv, hhigh, .inl (by omega)⟩
    · have hends : (x.mantissa - 1 / 2 : ℚ) * 2 ^ x.exponent = x.lowQuarter * x.quarter := by
        rw [hlow_eq, Nat.cast_sub (by omega), ← x.four_mul_quarter]
        push_cast
        ring
      rw [hends] at hlow htie
      exact ⟨hlow, hhigh, htie⟩

/-- **A quotient is read as the number in whose interval it is**, unless it overflows. -/
theorem settles_ofRatio? (hf : f.IsProper) (negative : Bool) {n d : Nat} (hn : 0 < n)
    (hd : 0 < d) : Settles negative ((n : ℚ) / d) (ofRatio? f negative n d) := by
  have hp := hf.two_le_precision
  obtain ⟨hleast, hmost⟩ := magnitude_spec hn hd
  unfold ofRatio?
  generalize he : max f.minExponent (magnitude n d - f.precision) = e
  have hmin : f.minExponent ≤ e := he ▸ le_max_left _ _
  -- The mantissa fills the places of the format, save at the least exponent.
  have hfits : (n : ℚ) / d < 2 ^ f.precision * 2 ^ e := by
    rw [← zpow_natCast, ← zpow_add₀ two_ne_zero]
    exact hmost.trans_le (zpow_le_zpow_right₀ one_le_two (by omega))
  have hfull : f.minExponent < e → 2 ^ (f.precision - 1) * 2 ^ e ≤ (n : ℚ) / d := by
    intro hlt
    rw [← zpow_natCast, ← zpow_add₀ two_ne_zero]
    exact (zpow_le_zpow_right₀ one_le_two (by omega)).trans hleast
  have hv : 0 ≤ (n : ℚ) / d := by positivity
  have hpos : (0 : ℚ) < 2 ^ e := by positivity
  obtain ⟨hlow, hhigh, htie⟩ := roundDiv_scaleDown_spec (n := n) (e := e) hd rfl
  simp only
  generalize roundDiv (scaleDown 2 e n d).1 (scaleDown 2 e n d).2 = m at *
  generalize (n : ℚ) / d = v at *
  have htwo : (2 : ℚ) ^ f.precision = 2 * 2 ^ (f.precision - 1) := by
    rw [← pow_succ', Nat.sub_add_cancel (by omega)]
  have hpow : (2 : ℚ) ^ (e + 1) = 2 * 2 ^ e := by rw [zpow_add₀ two_ne_zero, zpow_one, mul_comm]
  by_cases htop : m = Nat.pow 2 f.precision
  · -- The value rounds up to a power of two, which has the next exponent.
    have hmq : (m : ℚ) = 2 * 2 ^ (f.precision - 1) := by
      rw [htop, ← htwo]
      push_cast [Nat.pow_eq]
      rfl
    rw [hmq] at hlow hhigh
    rw [if_pos htop]
    rcases ofParts?_cases (f := f) negative (m := 2 ^ (f.precision - 1)) (e := e + 1)
      (Nat.pow_lt_pow_right (by decide) (by omega)) (by omega) (.inl le_rfl) with
      ⟨x, hx, hneg, hmant, hexp⟩ | ⟨hnone, hbig⟩
    · have heven : x.mantissa % 2 = 0 := by
        rw [hmant]
        exact Nat.mod_eq_zero_of_dvd (dvd_pow_self 2 (by omega))
      have hmantq : (x.mantissa : ℚ) = 2 ^ (f.precision - 1) := by rw [hmant]; push_cast; rfl
      refine .inl ⟨x, hx, hneg, rounds_of_roundDiv hp hv ?_ ?_ (.inl heven) fun _ => ?_⟩
      · rw [hmantq, hexp, hpow]
        linarith
      · rw [hmantq, hexp, hpow]
        linarith
      · rw [hexp, hpow]
        linarith
    · refine .inr ⟨hnone, (BinaryFormat.overflows_iff hf).mpr ?_⟩
      have hle : (2 : ℚ) ^ f.maxExponent ≤ 2 ^ e :=
        zpow_le_zpow_right₀ one_le_two (by omega)
      have hcoef : (0 : ℚ) ≤ 2 * 2 ^ f.precision - 1 := by
        have := one_le_pow₀ (n := f.precision) (one_le_two (α := ℚ))
        linarith
      have := mul_le_mul_of_nonneg_left hle hcoef
      rw [← htwo] at hlow
      rw [BinaryFormat.top_eq]
      linarith
  · have hm : m < 2 ^ f.precision := by
      have hmq : (m - 1 / 2 : ℚ) < 2 ^ f.precision :=
        lt_of_mul_lt_mul_right (hlow.trans_lt hfits) hpos.le
      have hsucc : (m : ℚ) < (2 ^ f.precision + 1 : ℕ) := by
        push_cast
        linarith
      have hle : m < 2 ^ f.precision + 1 := by exact_mod_cast hsucc
      rw [Nat.pow_eq] at htop
      omega
    have hcanon : 2 ^ (f.precision - 1) ≤ m ∨ e = f.minExponent := by
      rcases hmin.eq_or_lt with heq | hlt
      · exact .inr heq.symm
      · have hmq : (2 ^ (f.precision - 1) : ℚ) ≤ m + 1 / 2 :=
          le_of_mul_le_mul_right ((hfull hlt).trans hhigh) hpos
        have hsucc : ((2 ^ (f.precision - 1) : ℕ) : ℚ) < (m + 1 : ℕ) := by
          push_cast
          linarith
        have hle : 2 ^ (f.precision - 1) < m + 1 := by exact_mod_cast hsucc
        exact .inl (by omega)
    rw [if_neg htop]
    rcases ofParts?_cases (f := f) negative hm hmin hcanon with
      ⟨x, hx, hneg, rfl, rfl⟩ | ⟨hnone, hbig⟩
    · refine .inl ⟨x, hx, hneg, rounds_of_roundDiv hp hv hlow hhigh htie fun hlt => ?_⟩
      linarith [hfull hlt]
    · refine .inr ⟨hnone, (BinaryFormat.overflows_iff hf).mpr ?_⟩
      have hle : (2 : ℚ) * 2 ^ f.maxExponent ≤ 2 ^ e := by
        rw [← zpow_one_add₀ two_ne_zero]
        exact zpow_le_zpow_right₀ one_le_two (by omega)
      have hone : (0 : ℚ) < 2 ^ f.maxExponent := by positivity
      have := mul_le_mul_of_nonneg_left hle (show (0 : ℚ) ≤ 2 ^ (f.precision - 1) by positivity)
      have := hfull (lt_of_le_of_lt hf.min_le_max hbig)
      rw [BinaryFormat.top_eq, htwo]
      linarith

/-! ## Reading a decimal number -/

/-- Zero is read of the values up to half the least positive number. -/
theorem settles_zero (hf : f.IsProper) (negative : Bool) {v : ℚ} (hv : 0 ≤ v)
    (hsmall : v ≤ 2 ^ (f.minExponent - 1)) :
    Settles negative v (ofParts? f negative 0 f.minExponent) := by
  have hhalf : (2 : ℚ) ^ (f.minExponent - 1) = 1 / 2 * 2 ^ f.minExponent := by
    rw [zpow_sub_one₀ two_ne_zero]
    ring
  have hpos : (0 : ℚ) < 2 ^ f.minExponent := by positivity
  rcases ofParts?_cases (f := f) negative (m := 0) (Nat.two_pow_pos _) le_rfl (.inr rfl) with
    ⟨x, hx, hneg, hmant, hexp⟩ | ⟨-, hbig⟩
  · have hmantq : (x.mantissa : ℚ) = 0 := by rw [hmant, Nat.cast_zero]
    refine .inl ⟨x, hx, hneg, rounds_of_roundDiv hf.two_le_precision hv ?_ ?_ (.inl ?_) ?_⟩
    · rw [hmantq, hexp]
      linarith
    · rw [hmantq, hexp]
      linarith
    · omega
    · exact fun hlt => absurd hexp hlt.ne'
  · exact absurd hf.min_le_max (not_le.mpr hbig)

/-- **A decimal number is read as the number in whose interval it is**, unless it overflows. -/
theorem settles_nearest? (hf : f.IsProper) (d : Decimal) :
    Settles d.negative d.absValue (nearest? f d) := by
  have hv := d.absValue_nonneg
  unfold nearest?
  by_cases hdigits : d.digits = 0
  · simp only [hdigits, if_true]
    have hzero : d.absValue = 0 := by simp [Decimal.absValue, hdigits]
    exact settles_zero hf d.negative hv (by rw [hzero]; positivity)
  · simp only [hdigits, if_false]
    generalize hplaces : d.exponent + ((Nat.toDigits 10 d.digits).length : Int) = places
    by_cases hlarge : f.maxExponent + f.precision ≤ 3 * (places - 1)
    · have hrange := hf.range
      have hmuch : f.top ≤ d.absValue := by
        refine le_trans ?_ (pow_le_absValue hdigits hplaces (by omega))
        exact zpow_le_zpow_right₀ one_le_two (by omega)
      have hlast : (0 : ℚ) < 2 ^ f.maxExponent := by positivity
      rw [if_pos hlarge]
      exact .inr ⟨rfl, (BinaryFormat.overflows_iff hf).mpr (by linarith)⟩
    · rw [if_neg hlarge]
      by_cases hsmall : places ≤ 0 ∧ 3 * places < f.minExponent - 1
      · rw [if_pos (by simpa using hsmall)]
        have htiny := (absValue_lt_pow hdigits hplaces hsmall.1).le
        refine settles_zero hf d.negative hv (htiny.trans ?_)
        exact zpow_le_zpow_right₀ one_le_two hsmall.2.le
      · rw [if_neg (by simpa using hsmall), ← ratio_absValue d]
        exact settles_ofRatio? hf d.negative (scaleDown_fst_pos _ (Nat.pos_of_ne_zero hdigits))
          (scaleDown_snd_pos (by decide) _ Nat.one_pos)

/-! ## The nearest number -/

/-- The number with its sign. -/
def value (x : Binary f) : ℚ := if x.negative then -x.size else x.size

/-- The number has the sign of the decimal number and is nearest to it; of two equally near ones it
is the one with the even mantissa. -/
structure IsNearest (x : Binary f) (d : Decimal) : Prop where
  sign : x.negative = d.negative
  nearest : ∀ y : Binary f, |x.value - d.value| ≤ |y.value - d.value|
  tie : ∀ y : Binary f, |y.value - d.value| = |x.value - d.value| →
    y.value = x.value ∨ x.mantissa % 2 = 0

theorem ext_parts {x y : Binary f} (hneg : x.negative = y.negative)
    (hmant : x.mantissa = y.mantissa) (hexp : x.exponent = y.exponent) : x = y := by
  cases x
  cases y
  simp_all

theorem size_nonneg (x : Binary f) : 0 ≤ x.size := by
  unfold size
  positivity

/-- Between numbers of one sign only the sizes count. -/
theorem abs_value_sub (h : x.negative = d.negative) :
    |x.value - d.value| = |x.size - d.absValue| := by
  unfold value Decimal.value
  rw [h]
  cases d.negative with
  | false => rfl
  | true =>
    simp only [if_true]
    rw [neg_sub_neg, abs_sub_comm]

/-- A number of the other sign is further away. -/
theorem abs_value_sub_of_ne (h : x.negative ≠ d.negative) :
    |x.value - d.value| = x.size + d.absValue := by
  have hx := x.size_nonneg
  have hd := d.absValue_nonneg
  unfold value Decimal.value
  rw [Bool.eq_not.mpr h]
  cases d.negative with
  | false =>
    simp only [Bool.not_false, if_true, Bool.false_eq_true, if_false]
    rw [abs_of_nonpos (by linarith)]
    ring
  | true =>
    simp only [Bool.not_true, if_true, Bool.false_eq_true, if_false]
    rw [abs_of_nonneg (by linarith)]
    ring

/-- The number of the same size with the sign of the decimal number. -/
def withSign (x : Binary f) (negative : Bool) : Binary f := { x with negative := negative }

theorem IsNearest.isClosest (h : x.IsNearest d) : x.IsClosest d.absValue := by
  have hsame : ∀ y : Binary f,
      |(y.withSign d.negative).value - d.value| = |y.size - d.absValue| := fun y =>
    abs_value_sub (x := y.withSign d.negative) rfl
  have hx := abs_value_sub h.sign
  constructor
  · intro y
    rw [← hx, ← hsame y]
    exact h.nearest _
  · intro y heq
    rw [← hx, ← hsame y] at heq
    refine (h.tie _ heq).imp_left fun hvalue => ?_
    unfold value at hvalue
    rw [h.sign] at hvalue
    cases hneg : d.negative with
    | false => simpa [hneg, withSign, size] using hvalue
    | true => simpa [hneg, withSign, size] using hvalue

/-- Only zero is nearest to zero. -/
theorem IsClosest.size_eq_zero (h : x.IsClosest 0) : x.size = 0 := by
  let zero : Binary f := ⟨false, 0, f.minExponent, Nat.two_pow_pos _, le_rfl,
    x.le_exponent.trans x.exponent_le, .inr rfl⟩
  have hzero : zero.size = 0 := by simp [zero, size]
  have hle := h.nearest zero
  rw [hzero, sub_zero, sub_zero, abs_zero] at hle
  exact abs_nonpos_iff.mp hle

theorem IsClosest.isNearest (hsign : x.negative = d.negative) (h : x.IsClosest d.absValue) :
    x.IsNearest d := by
  have hx := abs_value_sub hsign
  have hd := d.absValue_nonneg
  -- A number of the other sign is as near as one of the same size with this sign at best.
  have hother : ∀ y : Binary f, |y.size - d.absValue| ≤ |y.value - d.value| := by
    intro y
    by_cases hy : y.negative = d.negative
    · rw [abs_value_sub hy]
    · rw [abs_value_sub_of_ne hy, abs_le]
      constructor <;> linarith [y.size_nonneg]
  refine ⟨hsign, fun y => ?_, fun y heq => ?_⟩
  · rw [hx]
    exact (h.nearest y).trans (hother y)
  · rw [hx] at heq
    have hsize : |y.size - d.absValue| = |x.size - d.absValue| :=
      ((hother y).trans heq.le).antisymm (h.nearest y)
    refine (h.tie y hsize).imp_left fun hsame => ?_
    by_cases hy : y.negative = d.negative
    · rw [value, value, hsame, hy, hsign]
    · -- Both are zeros.
      rw [abs_value_sub_of_ne hy, hsame] at heq
      have hzero : x.size = 0 := by
        rcases abs_cases (x.size - d.absValue) with ⟨habs, -⟩ | ⟨habs, -⟩ <;> rw [habs] at heq
        · have hnone : d.absValue = 0 := by linarith
          rw [hnone] at h
          exact h.size_eq_zero
        · linarith
      simp [value, hsame, hzero]

/-- **The nearest number has the sign and the nearest size.** -/
theorem isNearest_iff : x.IsNearest d ↔ x.negative = d.negative ∧ x.IsClosest d.absValue :=
  ⟨fun h => ⟨h.sign, h.isClosest⟩, fun h => h.2.isNearest h.1⟩

/-- **A decimal number is read as the nearest number**, unless it overflows. -/
theorem nearest?_eq_some_iff (hf : f.IsProper) :
    nearest? f d = some x ↔ ¬f.Overflows d.absValue ∧ x.IsNearest d := by
  rw [isNearest_iff]
  rcases settles_nearest? hf d with ⟨y, hy, hneg, hrounds⟩ | ⟨hnone, hover⟩
  · rw [hy, Option.some.injEq]
    constructor
    · rintro rfl
      exact ⟨hrounds.not_overflows hf, hneg, hrounds.isClosest⟩
    · rintro ⟨-, hsign, hclosest⟩
      obtain ⟨hmant, hexp⟩ := eq_of_size_eq (hrounds.isClosest.unique hclosest)
      exact ext_parts (hneg.trans hsign.symm) hmant hexp
  · rw [hnone]
    exact iff_of_false (fun h => nomatch h) fun h => h.1 hover

/-- A decimal number that overflows is not read. -/
theorem nearest?_eq_none_iff (hf : f.IsProper) :
    nearest? f d = none ↔ f.Overflows d.absValue := by
  rcases settles_nearest? hf d with ⟨y, hy, -, hrounds⟩ | ⟨hnone, hover⟩
  · rw [hy]
    exact iff_of_false (fun h => nomatch h) (hrounds.not_overflows hf)
  · exact iff_of_true hnone hover

/-! ## Texts -/

/-- **Numbers read back.** The text of a number is read as the number, the sign of a zero
included. -/
theorem parse?_format (hf : f.IsProper) (x : Binary f) : parse? f x.format = some x := by
  obtain ⟨written, hformat, hsign, hrounds⟩ := x.format_rounds
  obtain ⟨d, hd, hneg, hval⟩ := Decimal.ofChars?_renderChars written
  have hblanks : Text.trimChars written.renderChars = written.renderChars :=
    Text.trimChars_eq_self fun c hc => Decimal.not_isBlank_of_mem_renderChars hc
  rw [← hval] at hrounds
  rw [parse?, hformat, Decimal.render, String.toList_ofList, hblanks, hd, Option.bind_some,
    nearest?_eq_some_iff hf, isNearest_iff]
  exact ⟨hrounds.not_overflows hf, (hneg.trans hsign).symm, hrounds.isClosest⟩

theorem isPlain_format (x : Binary f) : Decimal.IsPlain x.format.toList := by
  unfold format Decimal.render
  split <;> rw [String.toList_ofList] <;> exact Decimal.isPlain_renderChars _

/-- **Numbers are written and read exactly.** Every number of double precision, a zero with its sign
included, is written without an exponent and reads back as itself. Of all texts the numerals are
read, with blanks around them or not, each as the nearest number; and a numeral is not read if it
overflows. -/
theorem reads_exactly :
    (∀ x : Binary binary64,
      Decimal.IsPlain x.format.toList ∧ parse? binary64 x.format = some x) ∧
    ∀ text, (∀ x, parse? binary64 text = some x ↔
        ∃ d, Decimal.Writes (Text.trimChars text.toList) d ∧ ¬binary64.Overflows d.absValue ∧
          x.IsNearest d) ∧
      (parse? binary64 text = none ↔
        ∀ d, Decimal.Writes (Text.trimChars text.toList) d → binary64.Overflows d.absValue) := by
  refine ⟨fun x => ⟨isPlain_format x, parse?_format binary64_isProper x⟩,
    fun text => ⟨fun x => ?_, ?_⟩⟩
  · rw [parse?, Option.bind_eq_some_iff]
    simp only [Decimal.ofChars?_eq_some_iff, nearest?_eq_some_iff binary64_isProper]
  · rw [parse?, Option.bind_eq_none_iff]
    simp only [Decimal.ofChars?_eq_some_iff, nearest?_eq_none_iff binary64_isProper]

/-- Below half of the least positive number a text is read as zero, and above it as that number. -/
example : (parse? binary64 " 2.4703282292062327E-324 ").map (·.mantissa) = some 0 ∧
    (parse? binary64 "+24703282292062328e-340").map (·.mantissa) = some 1 ∧
    parse? binary64 "1.7976931348623159e308" = none := by decide +kernel

end Binary

end CimStore

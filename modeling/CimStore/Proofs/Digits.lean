import CimStore.Decimal
import CimStore.Proofs.TextParts
import Mathlib.Data.List.TakeWhile
import Mathlib.Data.Rat.Defs
import Mathlib.Algebra.Order.Field.Power
import Mathlib.Tactic.Positivity
import Mathlib.Tactic.Ring

/-!
# Numbers written and read back

What `formatInteger` and `Decimal.render` write is read back:

* `parseInteger64?_formatInteger`: an integer of 64 bits comes back as itself;
* `Decimal.ofChars?_renderChars`: a decimal number comes back with the same sign and the same
  value `digits · 10 ^ exponent`. Its digits and exponent may change: zeros in front of the point
  are written out.
-/

namespace CimStore

/-! ## Blanks -/

theorem isBlank_eq_false_of_isDigit {c : Char} (h : isDigit c = true) :
    Text.isBlank c = false := by
  have hc : 48 ≤ c.toNat ∧ c.toNat ≤ 57 := by
    simpa [isDigit, Char.le_def, UInt32.le_iff_toNat_le] using h
  simp only [Text.isBlank]
  grind

/-! ## Digits -/

theorem isDigit_of_mem_toDigits {n : Nat} {c : Char} (h : c ∈ Nat.toDigits 10 n) :
    isDigit c = true := by
  have := Nat.isDigit_of_mem_toDigits (by decide) (by decide) h
  simpa [Char.isDigit, isDigit, Char.le_def, UInt32.le_iff_toNat_le] using this

theorem ofDigits_eq_ofDigitChars (ds : List Char) : ofDigits ds = Nat.ofDigitChars 10 ds 0 :=
  Nat.ofDigitChars_eq_foldl.symm

@[simp]
theorem ofDigits_toDigits (n : Nat) : ofDigits (Nat.toDigits 10 n) = n := by
  rw [ofDigits_eq_ofDigitChars, Nat.ofDigitChars_ten_toDigits]

theorem ofDigits_append_zeros (ds : List Char) (k : Nat) :
    ofDigits (ds ++ List.replicate k '0') = ofDigits ds * 10 ^ k := by
  simp only [ofDigits_eq_ofDigitChars]
  rw [Nat.ofDigitChars_append, Nat.ofDigitChars_replicate_zero, Nat.mul_comm]

theorem ofDigits_zeros_append (k : Nat) (ds : List Char) :
    ofDigits (List.replicate k '0' ++ ds) = ofDigits ds := by
  simp only [ofDigits_eq_ofDigitChars]
  rw [Nat.ofDigitChars_append, Nat.ofDigitChars_replicate_zero, Nat.mul_zero]

theorem digits?_toDigits (n : Nat) : digits? (Nat.toDigits 10 n) = some n := by
  have hall : (Nat.toDigits 10 n).all isDigit = true :=
    List.all_eq_true.mpr fun c hc => isDigit_of_mem_toDigits hc
  simp [digits?, hall, Nat.toDigits_ne_nil]

/-- A digit in front is no sign. -/
theorem takeSign_cons_of_isDigit {c : Char} {cs : List Char} (h : isDigit c = true) :
    takeSign (c :: cs) = (false, c :: cs) := by
  unfold takeSign
  split
  · rename_i heq; cases heq; exact absurd h (by decide)
  · rename_i heq; cases heq; exact absurd h (by decide)
  · rfl

theorem takeSign_of_forall_isDigit (ds : List Char) (h : ∀ c ∈ ds, isDigit c = true) :
    takeSign ds = (false, ds) := by
  cases ds with
  | nil => rfl
  | cons c cs => exact takeSign_cons_of_isDigit (h c (List.mem_cons_self ..))

/-! ## Integers -/

theorem formatInteger_toList (i : Int) :
    (formatInteger i).toList =
      if i < 0 then '-' :: Nat.toDigits 10 i.natAbs else Nat.toDigits 10 i.natAbs := by
  unfold formatInteger
  rw [Int.toString_eq_repr, Int.repr_eq_if]
  by_cases h : i < 0
  · have hn : (-i).toNat = i.natAbs := by omega
    rw [if_pos h, if_neg (by omega), String.toList_append, Nat.toList_repr, hn]
    rfl
  · have hn : i.toNat = i.natAbs := by omega
    rw [if_neg h, if_pos (by omega), Nat.toList_repr, hn]

theorem not_isBlank_of_mem_formatInteger {i : Int} {c : Char}
    (h : c ∈ (formatInteger i).toList) : Text.isBlank c = false := by
  rw [formatInteger_toList] at h
  split at h
  · rcases List.mem_cons.mp h with rfl | h
    · decide
    · exact isBlank_eq_false_of_isDigit (isDigit_of_mem_toDigits h)
  · exact isBlank_eq_false_of_isDigit (isDigit_of_mem_toDigits h)

/-- **Integers read back.** -/
theorem parseInteger64?_formatInteger (i : Integer64) :
    parseInteger64? (formatInteger i.val) = some i := by
  obtain ⟨i, hi⟩ := i
  unfold parseInteger64?
  rw [Text.trimChars_eq_self fun c hc => not_isBlank_of_mem_formatInteger hc, formatInteger_toList]
  unfold integer64OfChars?
  by_cases h : i < 0
  · have hs : signed true i.natAbs = i := by simp only [signed, ↓reduceIte]; omega
    simp [h, takeSign, digits?_toDigits, hs, integer64?, hi]
  · have hs : signed false i.natAbs = i := by
      simp only [signed, Bool.false_eq_true, ↓reduceIte]; omega
    have hsign := takeSign_of_forall_isDigit (Nat.toDigits 10 i.natAbs)
      fun c hc => isDigit_of_mem_toDigits hc
    simp [h, hsign, digits?_toDigits, hs, integer64?, hi]

/-! ## Decimal numbers -/

namespace Decimal

/-- The value of the digits, without the sign. -/
def absValue (d : Decimal) : ℚ := d.digits * (10 : ℚ) ^ d.exponent

/-- A text of a sign and digits in which a digit comes first. -/
private theorem takeSign_signed (negative : Bool) {c : Char} {cs : List Char}
    (h : isDigit c = true) :
    takeSign (if negative then '-' :: c :: cs else c :: cs) = (negative, c :: cs) := by
  cases negative
  · exact takeSign_cons_of_isDigit h
  · rfl

theorem takeWhile_isDigit (ds rest : List Char) (hds : ∀ c ∈ ds, isDigit c = true)
    (hrest : rest.takeWhile isDigit = []) : (ds ++ rest).takeWhile isDigit = ds := by
  rw [List.takeWhile_append_of_pos hds, hrest, List.append_nil]

theorem dropWhile_isDigit (ds rest : List Char) (hds : ∀ c ∈ ds, isDigit c = true)
    (hrest : rest.dropWhile isDigit = rest) : (ds ++ rest).dropWhile isDigit = rest := by
  rw [List.dropWhile_append_of_pos hds, hrest]

/-- Digits alone are a whole number. -/
theorem ofChars?_digits (negative : Bool) (ds : List Char) (hne : ds ≠ [])
    (hds : ∀ c ∈ ds, isDigit c = true) :
    ofChars? (if negative then '-' :: ds else ds) = some ⟨negative, ofDigits ds, 0⟩ := by
  obtain ⟨c, cs, rfl⟩ := List.exists_cons_of_ne_nil hne
  have htake := takeWhile_isDigit _ [] hds rfl
  have hdrop := dropWhile_isDigit _ [] hds rfl
  rw [List.append_nil] at htake hdrop
  unfold ofChars?
  rw [takeSign_signed negative (hds c (List.mem_cons_self ..))]
  simp [htake, hdrop, takeFraction, exponentOfChars?]

/-- Digits, a point and digits are a fraction. -/
theorem ofChars?_point (negative : Bool) {ds fs : List Char} (hne : ds ≠ [])
    (hds : ∀ c ∈ ds, isDigit c = true) (hfs : ∀ c ∈ fs, isDigit c = true) :
    ofChars? (if negative then '-' :: (ds ++ '.' :: fs) else ds ++ '.' :: fs) =
      some ⟨negative, ofDigits (ds ++ fs), -fs.length⟩ := by
  obtain ⟨c, cs, rfl⟩ := List.exists_cons_of_ne_nil hne
  have hpoint : isDigit '.' = false := by decide
  have htake := takeWhile_isDigit _ ('.' :: fs) hds (by simp [hpoint])
  have hdrop := dropWhile_isDigit _ ('.' :: fs) hds (by simp [hpoint])
  have hftake := takeWhile_isDigit fs [] hfs rfl
  have hfdrop := dropWhile_isDigit fs [] hfs rfl
  rw [List.append_nil] at hftake hfdrop
  unfold ofChars?
  rw [List.cons_append, takeSign_signed negative (hds c (List.mem_cons_self ..)),
    ← List.cons_append]
  simp only [htake, hdrop, takeFraction, hftake, hfdrop]
  simp [exponentOfChars?]

/-- A written number has no blanks: it is made of digits, a point and a minus sign. -/
theorem not_isBlank_of_mem_renderChars {d : Decimal} {c : Char} (h : c ∈ d.renderChars) :
    Text.isBlank c = false := by
  have hdigits : ∀ c ∈ Nat.toDigits 10 d.digits, isDigit c = true := fun c hc =>
    isDigit_of_mem_toDigits hc
  have hzero : isDigit '0' = true := by decide
  have hmem : isDigit c = true ∨ c = '.' ∨ c = '-' := by
    unfold renderChars withPoint at h
    grind [List.mem_of_mem_take, List.mem_of_mem_drop]
  rcases hmem with hc | rfl | rfl
  · exact isBlank_eq_false_of_isDigit hc
  · decide
  · decide

/-- With a point inside, the same digits stand on both its sides, `places` of them behind it. -/
theorem withPoint_spec (places : Nat) {ds : List Char} (hds : ∀ c ∈ ds, isDigit c = true) :
    ∃ ws fs, withPoint places ds = ws ++ '.' :: fs ∧ ws ≠ [] ∧ fs.length = places ∧
      ofDigits (ws ++ fs) = ofDigits ds ∧ ∀ c ∈ ws ++ fs, isDigit c = true := by
  unfold withPoint
  by_cases hlt : places < ds.length
  · refine ⟨ds.take (ds.length - places), ds.drop (ds.length - places), by rw [if_pos hlt],
      ?_, ?_, ?_, ?_⟩
    · intro hnil
      have := congrArg List.length hnil
      simp only [List.length_take, List.length_nil] at this
      omega
    · rw [List.length_drop]
      omega
    · rw [List.take_append_drop]
    · rwa [List.take_append_drop]
  · refine ⟨['0'], List.replicate (places - ds.length) '0' ++ ds, by rw [if_neg hlt]; rfl,
      by simp, ?_, ?_, ?_⟩
    · rw [List.length_append, List.length_replicate]
      omega
    · rw [← List.append_assoc, ← List.replicate_one, List.replicate_append_replicate,
        ofDigits_zeros_append]
    · intro c hc
      rcases List.mem_append.mp hc with hc | hc
      · rw [List.mem_singleton.mp hc]; decide
      rcases List.mem_append.mp hc with hc | hc
      · rw [List.eq_of_mem_replicate hc]; decide
      · exact hds c hc

/-- **Decimal numbers read back** with their sign and value. -/
theorem ofChars?_renderChars (d : Decimal) :
    ∃ d', ofChars? d.renderChars = some d' ∧ d'.negative = d.negative ∧
      d'.absValue = d.absValue := by
  have hds : ∀ c ∈ Nat.toDigits 10 d.digits, isDigit c = true := fun c hc =>
    isDigit_of_mem_toDigits hc
  unfold renderChars
  by_cases h0 : d.digits = 0
  · have hzero : ∀ c ∈ ['0'], isDigit c = true := fun c hc => by
      rw [List.mem_singleton.mp hc]
      decide
    refine ⟨⟨d.negative, ofDigits ['0'], 0⟩, ?_, rfl, ?_⟩
    · simpa [h0] using ofChars?_digits d.negative ['0'] (by simp) hzero
    · simp [absValue, h0, ofDigits]
  by_cases he : 0 ≤ d.exponent
  · have hall : ∀ c ∈ Nat.toDigits 10 d.digits ++ List.replicate d.exponent.toNat '0',
        isDigit c = true := fun c hc => (List.mem_append.mp hc).elim (hds c) fun hc => by
      rw [List.eq_of_mem_replicate hc]; decide
    refine ⟨⟨d.negative, ofDigits (Nat.toDigits 10 d.digits ++
      List.replicate d.exponent.toNat '0'), 0⟩, ?_, rfl, ?_⟩
    · simpa [h0, he] using ofChars?_digits d.negative _ (by simp [Nat.toDigits_ne_nil]) hall
    · have hpow : (10 : ℚ) ^ d.exponent = (10 : ℚ) ^ d.exponent.toNat := by
        rw [← zpow_natCast, Int.toNat_of_nonneg he]
      simp [absValue, ofDigits_append_zeros, hpow]
  · obtain ⟨ws, fs, hpoint, hne, hlen, hdigits, hall⟩ := withPoint_spec (-d.exponent).toNat hds
    have hexp : -(fs.length : Int) = d.exponent := by omega
    refine ⟨⟨d.negative, ofDigits (ws ++ fs), -fs.length⟩, ?_, rfl, ?_⟩
    · simp only [h0, he, if_false, hpoint]
      exact ofChars?_point d.negative hne (fun c hc => hall c (List.mem_append_left _ hc))
        fun c hc => hall c (List.mem_append_right _ hc)
    · simp only [absValue, hexp, hdigits, ofDigits_toDigits]

/-- The places in front of the point: the value lies between the two powers of ten. -/
theorem absValue_bounds {d : Decimal} (h : d.digits ≠ 0) :
    (10 : ℚ) ^ (d.exponent + (Nat.toDigits 10 d.digits).length - 1) ≤ d.absValue ∧
      d.absValue < 10 ^ (d.exponent + (Nat.toDigits 10 d.digits).length) := by
  obtain ⟨k, hk⟩ := Nat.exists_eq_succ_of_ne_zero
    (Nat.length_toDigits_pos (b := 10) (n := d.digits)).ne'
  have hlow : 10 ^ k ≤ d.digits := by
    rcases Nat.eq_zero_or_pos k with rfl | hkpos
    · exact Nat.one_le_iff_ne_zero.mpr h
    · rw [← not_lt, ← Nat.length_toDigits_le_iff (by decide) hkpos, hk]
      omega
  have hhigh : d.digits < 10 ^ (k + 1) :=
    (Nat.length_toDigits_le_iff (by decide) (Nat.succ_pos k)).mp hk.le
  have hlowq : ((10 : ℚ) ^ k) ≤ d.digits := by exact_mod_cast hlow
  have hhighq : (d.digits : ℚ) < 10 ^ (k + 1) := by exact_mod_cast hhigh
  rw [hk]
  constructor
  · rw [show d.exponent + ((k.succ : Nat) : Int) - 1 = k + d.exponent by push_cast; ring,
      zpow_add₀ (by norm_num), zpow_natCast]
    exact mul_le_mul_of_nonneg_right hlowq (by positivity)
  · rw [add_comm, zpow_add₀ (by norm_num), zpow_natCast]
    exact mul_lt_mul_of_pos_right hhighq (by positivity)

end Decimal

end CimStore

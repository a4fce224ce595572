import CimStore.Proofs.Digits

/-!
# The notation of decimal numbers

A numeral is an optional sign, digits with an optional point anywhere, and an optional exponent. The
relations say which characters belong to each part, and what they stand for:

* `Decimal.Writes`: the characters write the decimal number;
* `Decimal.ofChars?_eq_some_iff`: what is read is what is written, and nothing else is read;
* `Decimal.isPlain_renderChars`: a number is written with digits, a point and a minus sign only.
-/

namespace CimStore.Decimal

/-! ## The parts of a numeral -/

/-- The characters of a sign: whether it is a minus. -/
inductive Sign : List Char → Bool → Prop
  | none : Sign [] false
  | plus : Sign ['+'] false
  | minus : Sign ['-'] true

/-- The characters of a fraction: its digits. -/
inductive Fraction : List Char → List Char → Prop
  | none : Fraction [] []
  | point {fs : List Char} (hfs : ∀ c ∈ fs, isDigit c = true) : Fraction ('.' :: fs) fs

/-- The characters of an exponent: its value. -/
inductive Exponent : List Char → Int → Prop
  | none : Exponent [] 0
  | some {c : Char} {s ds : List Char} {negative : Bool} (hc : c = 'e' ∨ c = 'E')
    (hs : Sign s negative) (hne : ds ≠ []) (hds : ∀ c ∈ ds, isDigit c = true) :
    Exponent (c :: (s ++ ds)) (signed negative (ofDigits ds))

/-- The characters write the number. There is a digit on one side of the point at least. -/
inductive Writes : List Char → Decimal → Prop
  | mk {s ws f fs t : List Char} {negative : Bool} {e : Int} (hs : Sign s negative)
    (hws : ∀ c ∈ ws, isDigit c = true) (hf : Fraction f fs) (hne : ws ++ fs ≠ [])
    (ht : Exponent t e) :
    Writes (s ++ (ws ++ (f ++ t))) ⟨negative, ofDigits (ws ++ fs), e - fs.length⟩

/-! ## What is read -/

/-- A sign is taken off. -/
theorem takeSign_spec (cs : List Char) :
    ∃ s, Sign s (takeSign cs).1 ∧ cs = s ++ (takeSign cs).2 := by
  unfold takeSign
  split
  · exact ⟨['-'], .minus, rfl⟩
  · exact ⟨['+'], .plus, rfl⟩
  · exact ⟨[], .none, rfl⟩

/-- Nothing else is taken off. -/
theorem takeSign_append {s cs : List Char} {negative : Bool} (hs : Sign s negative)
    (hcs : cs.head? ≠ some '-' ∧ cs.head? ≠ some '+') : takeSign (s ++ cs) = (negative, cs) := by
  cases hs with
  | plus => rfl
  | minus => rfl
  | none =>
    rw [List.nil_append]
    unfold takeSign
    split
    · exact absurd rfl hcs.1
    · exact absurd rfl hcs.2
    · rfl

theorem head?_ne_sign {c : Char} {cs : List Char} (h : isDigit c = true ∨ c = '.') :
    (c :: cs).head? ≠ some '-' ∧ (c :: cs).head? ≠ some '+' := by
  constructor <;> rintro ⟨⟩ <;> exact absurd h (by decide)

theorem digits?_eq_some_iff {ds : List Char} {n : Nat} : digits? ds = some n ↔
    ds ≠ [] ∧ (∀ c ∈ ds, isDigit c = true) ∧ ofDigits ds = n := by
  unfold digits?
  by_cases hds : ds = []
  · simp [hds]
  · by_cases hall : ds.all isDigit = true
    · simp_all
    · simp_all

theorem exponentOfChars?_eq_some_iff {cs : List Char} {e : Int} :
    exponentOfChars? cs = some e ↔ Exponent cs e := by
  constructor
  · intro h
    cases cs with
    | nil =>
      obtain rfl := Option.some.inj h
      exact .none
    | cons c cs =>
      obtain ⟨s, hs, hcs⟩ := takeSign_spec cs
      rw [exponentOfChars?] at h
      generalize takeSign cs = taken at h hs hcs
      obtain ⟨negative, ds⟩ := taken
      by_cases hc : (c = 'e' || c = 'E') = true
      · rw [if_pos hc] at h
        obtain ⟨n, hn, rfl⟩ := Option.map_eq_some_iff.mp h
        obtain ⟨hne, hds, rfl⟩ := digits?_eq_some_iff.mp hn
        rw [hcs]
        exact .some (by simpa using hc) hs hne hds
      · rw [if_neg hc] at h
        cases h
  · intro h
    cases h with
    | none => rfl
    | @some c s ds negative hc hs hne hds =>
      have htake : takeSign (s ++ ds) = (negative, ds) := by
        obtain ⟨d, ds, rfl⟩ := List.exists_cons_of_ne_nil hne
        exact takeSign_append hs (head?_ne_sign (.inl (hds d (List.mem_cons_self ..))))
      have hdigits := digits?_eq_some_iff.mpr ⟨hne, hds, rfl⟩
      rw [exponentOfChars?, if_pos (by simpa using hc), htake]
      simp only [hdigits, Option.map_some]

theorem takeFraction_spec (cs : List Char) :
    ∃ f, Fraction f (takeFraction cs).1 ∧ cs = f ++ (takeFraction cs).2 := by
  unfold takeFraction
  split
  · rename_i cs
    exact ⟨_, .point fun c hc => List.mem_takeWhile_imp hc,
      by rw [List.cons_append, List.takeWhile_append_dropWhile]⟩
  · exact ⟨[], .none, rfl⟩

/-- Neither a fraction nor an exponent begins with a digit. -/
theorem span_isDigit {f fs t : List Char} {e : Int} (hf : Fraction f fs) (ht : Exponent t e) :
    (f ++ t).takeWhile isDigit = [] ∧ (f ++ t).dropWhile isDigit = f ++ t := by
  cases hf with
  | point hfs => exact ⟨rfl, rfl⟩
  | none =>
    cases ht with
    | none => exact ⟨rfl, rfl⟩
    | some hc hs hne hds => rcases hc with rfl | rfl <;> exact ⟨rfl, rfl⟩

theorem takeFraction_append {f fs t : List Char} {e : Int} (hf : Fraction f fs)
    (ht : Exponent t e) : takeFraction (f ++ t) = (fs, t) := by
  cases hf with
  | none =>
    cases ht with
    | none => rfl
    | some hc hs hne hds => rcases hc with rfl | rfl <;> rfl
  | point hfs =>
    obtain ⟨htake, hdrop⟩ := span_isDigit .none ht
    rw [List.cons_append, takeFraction]
    exact Prod.ext (takeWhile_isDigit fs t hfs htake) (dropWhile_isDigit fs t hfs hdrop)

/-- **What is read is what is written**: the numerals are read, each as its number, and no other
text. -/
theorem ofChars?_eq_some_iff {cs : List Char} {d : Decimal} :
    ofChars? cs = some d ↔ Writes cs d := by
  constructor
  · intro h
    obtain ⟨s, hs, hcs⟩ := takeSign_spec cs
    rw [ofChars?] at h
    generalize takeSign cs = taken at h hs hcs
    obtain ⟨negative, ds⟩ := taken
    obtain ⟨f, hf, hrest⟩ := takeFraction_spec (ds.dropWhile isDigit)
    simp only at h hs hcs
    generalize takeFraction (ds.dropWhile isDigit) = taken at h hf hrest
    obtain ⟨fs, t⟩ := taken
    simp only at h hf hrest
    by_cases hempty : ((ds.takeWhile isDigit).isEmpty && fs.isEmpty) = true
    · rw [if_pos hempty] at h
      cases h
    · rw [if_neg hempty] at h
      obtain ⟨e, he, rfl⟩ := Option.map_eq_some_iff.mp h
      have hparts : cs = s ++ (ds.takeWhile isDigit ++ (f ++ t)) := by
        rw [← hrest, List.takeWhile_append_dropWhile, hcs]
      rw [hparts]
      exact .mk hs (fun c hc => List.mem_takeWhile_imp hc) hf (by simpa using hempty)
        (exponentOfChars?_eq_some_iff.mp he)
  · intro h
    cases h with
    | @mk s ws f fs t negative e hs hws hf hne ht =>
      have hsign : takeSign (s ++ (ws ++ (f ++ t))) = (negative, ws ++ (f ++ t)) := by
        refine takeSign_append hs ?_
        cases ws with
        | cons w ws => exact head?_ne_sign (.inl (hws w (List.mem_cons_self ..)))
        | nil =>
          cases hf with
          | none => exact absurd rfl hne
          | point => exact head?_ne_sign (.inr rfl)
      obtain ⟨htake, hdrop⟩ := span_isDigit hf ht
      have hempty : ¬(ws.isEmpty && fs.isEmpty) = true := by simpa using hne
      rw [ofChars?, hsign]
      simp only [takeWhile_isDigit ws _ hws htake, dropWhile_isDigit ws _ hws hdrop,
        takeFraction_append hf ht, exponentOfChars?_eq_some_iff.mpr ht, Option.map_some]
      rw [if_neg hempty]

/-! ## What is written -/

/-- A minus sign or none, digits, and digits behind a point or none. -/
inductive IsPlain : List Char → Prop
  | whole {s ws : List Char} (hs : s = [] ∨ s = ['-']) (hws : ws ≠ [])
    (hdigits : ∀ c ∈ ws, isDigit c = true) : IsPlain (s ++ ws)
  | point {s ws fs : List Char} (hs : s = [] ∨ s = ['-']) (hws : ws ≠ []) (hfs : fs ≠ [])
    (hdigits : ∀ c ∈ ws ++ fs, isDigit c = true) : IsPlain (s ++ (ws ++ '.' :: fs))

/-- **A number is written without an exponent.** -/
theorem isPlain_renderChars (d : Decimal) : IsPlain d.renderChars := by
  have hds : ∀ c ∈ Nat.toDigits 10 d.digits, isDigit c = true := fun c hc =>
    isDigit_of_mem_toDigits hc
  have hsign : ∀ cs, ∃ s : List Char, (s = [] ∨ s = ['-']) ∧
      (if d.negative then '-' :: cs else cs) = s ++ cs := fun cs => by
    cases d.negative with
    | false => exact ⟨[], .inl rfl, rfl⟩
    | true => exact ⟨['-'], .inr rfl, rfl⟩
  have hzero : isDigit '0' = true := by decide
  unfold renderChars
  obtain ⟨s, hs, heq⟩ := hsign _
  rw [heq]
  by_cases h0 : d.digits = 0
  · rw [if_pos h0]
    exact .whole hs (List.cons_ne_nil _ _) fun c hc => List.mem_singleton.mp hc ▸ hzero
  rw [if_neg h0]
  by_cases he : 0 ≤ d.exponent
  · rw [if_pos he]
    refine .whole hs (by simp [Nat.toDigits_ne_nil]) fun c hc => ?_
    rcases List.mem_append.mp hc with hc | hc
    · exact hds c hc
    · exact List.eq_of_mem_replicate hc ▸ hzero
  · rw [if_neg he]
    obtain ⟨ws, fs, hpoint, hne, hlen, -, hall⟩ := withPoint_spec (-d.exponent).toNat hds
    rw [hpoint]
    exact .point hs hne (fun hnil => by rw [hnil, List.length_nil] at hlen; omega) hall

end CimStore.Decimal

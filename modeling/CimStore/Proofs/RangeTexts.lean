import CimStore.IdRanges
import CimStore.Proofs.Numerals
import Mathlib.Data.List.Forall2

/-!
# Lists of ids written as ranges

What is shown of a list of ids can be read again, and says as much as the list:

* `IdRange.flatMap_ids_idRanges`: the ranges, written out, are the ids in their order;
* `IdRange.isChain_idRanges`, `IdRange.length_idRanges_le`: no two neighbours make one range, and no
  list of ranges with these ids is shorter;
* `IdRange.Spells`, `IdRange.Lists`: the texts of a range and of a list of ranges. A text has one
  reading at most (`Lists.unique`), although a hyphen is both a sign and the mark between bounds;
* `IdRange.reads_formatIdRanges`: the text shown has one reading, and that gives the ids back.
-/

namespace CimStore

namespace IdRange

variable {r s : IdRange} {rs ss : List IdRange}

/-! ## The ids of a range -/

theorem ids_single (id : Int) : (single id).ids = [id] := by
  simp [single, ids]

theorem getElem?_ids (r : IdRange) (i : Nat) :
    r.ids[i]? = if i < (r.last - r.first + 1).toNat then some (r.first + i) else none := by
  unfold ids
  by_cases hi : i < (r.last - r.first + 1).toNat <;> simp [hi]

theorem length_ids (r : IdRange) : r.ids.length = (r.last - r.first + 1).toNat := by
  simp [ids]

/-- The ids of a range that goes on from another follow those of the other. -/
theorem ids_eq_append {t : IdRange} (hfirst : t.first = r.first) (hlast : t.last = s.last)
    (h : r.last + 1 = s.first) : t.ids = r.ids ++ s.ids := by
  have hr := r.first_le_last
  have hs := s.first_le_last
  refine List.ext_getElem? fun i => ?_
  rw [List.getElem?_append, length_ids, getElem?_ids, getElem?_ids, getElem?_ids]
  by_cases hi : i < (r.last - r.first + 1).toNat
  · rw [if_pos (by omega), if_pos hi, if_pos hi, hfirst]
  · have hshift : s.first + ((i - (r.last - r.first + 1).toNat : Nat) : Int) = t.first + i := by
      omega
    rw [if_neg hi, hshift]
    exact if_congr (by omega) rfl rfl

/-- **Two ranges make one range only if the second goes on from the first.** -/
theorem last_add_one_eq_of_ids_eq_append {t : IdRange} (h : t.ids = r.ids ++ s.ids) :
    r.last + 1 = s.first := by
  have hr := r.first_le_last
  have hs := s.first_le_last
  have hfirst := congrArg (·[0]?) h
  have hnext := congrArg (·[(r.last - r.first + 1).toNat]?) h
  simp only [List.getElem?_append, length_ids, getElem?_ids] at hfirst hnext
  split_ifs at hfirst hnext <;> simp at hfirst hnext <;> omega

/-! ## The ids of the ranges of a list -/

theorem flatMap_ids_cons (id : Int) (rs : List IdRange) :
    (cons id rs).flatMap ids = id :: rs.flatMap ids := by
  cases rs with
  | nil => simp [cons, ids_single]
  | cons r rs =>
    rw [cons]
    split
    · rename_i h
      have hr := r.first_le_last
      have hids : (⟨id, r.last, by omega⟩ : IdRange).ids = (single id).ids ++ r.ids :=
        ids_eq_append rfl rfl h
      rw [List.flatMap_cons, List.flatMap_cons, hids, ids_single]
      rfl
    · rw [List.flatMap_cons, ids_single]
      rfl

/-- **The ranges of a list hold its ids, in their order.** -/
theorem flatMap_ids_idRanges (ids : List Int) : (idRanges ids).flatMap IdRange.ids = ids := by
  unfold idRanges
  induction ids with
  | nil => rfl
  | cons id ids ih => rw [List.foldr_cons, flatMap_ids_cons, ih]

theorem mem_of_mem_idRanges {ids : List Int} (h : r ∈ idRanges ids) :
    r.first ∈ ids ∧ r.last ∈ ids := by
  have hr := r.first_le_last
  have hmem : ∀ id ∈ r.ids, id ∈ ids := fun id hid =>
    flatMap_ids_idRanges ids ▸ List.mem_flatMap.mpr ⟨r, h, hid⟩
  constructor
  · refine hmem _ (List.mem_of_getElem? (i := 0) ?_)
    rw [getElem?_ids, if_pos (by omega), Nat.cast_zero, Int.add_zero]
  · refine hmem _ (List.mem_of_getElem? (i := (r.last - r.first).toNat) ?_)
    rw [getElem?_ids, if_pos (by omega)]
    congr 1
    omega

/-! ## As few ranges as possible -/

theorem isChain_cons {id : Int} (h : rs.IsChain fun r s => r.last + 1 ≠ s.first) :
    (cons id rs).IsChain fun r s => r.last + 1 ≠ s.first := by
  cases rs with
  | nil => exact .singleton _
  | cons r rs =>
    rw [cons]
    split
    · -- The first range is only longer at its other end.
      cases rs with
      | nil => exact .singleton _
      | cons s rs =>
        obtain ⟨hrs, hchain⟩ := List.isChain_cons_cons.mp h
        exact .cons_cons hrs hchain
    · rename_i hid
      exact .cons_cons hid h

/-- **Neighbouring ranges do not go on from one another.** -/
theorem isChain_idRanges (ids : List Int) :
    (idRanges ids).IsChain fun r s => r.last + 1 ≠ s.first := by
  unfold idRanges
  induction ids with
  | nil => exact .nil
  | cons id ids ih => exact isChain_cons ih

/-- The ids of a range in front of ranges become one range, which may take in the first of them. -/
theorem foldr_cons_ids (n : Nat) (r : IdRange) (h : r.last = r.first + n) (rs : List IdRange) :
    ∃ s ss, r.ids.foldr cons rs = s :: ss ∧ s.first = r.first ∧ ss.length ≤ rs.length := by
  induction n generalizing r with
  | zero =>
    have hids : r.ids = [r.first] := by
      simp [ids, show r.last - r.first = 0 by omega]
    rw [hids, List.foldr_cons, List.foldr_nil]
    cases rs with
    | nil => exact ⟨single r.first, [], rfl, rfl, le_rfl⟩
    | cons s ss =>
      rw [cons]
      split
      · exact ⟨_, ss, rfl, rfl, by simp⟩
      · exact ⟨_, s :: ss, rfl, rfl, le_rfl⟩
  | succ n ih =>
    obtain ⟨s, ss, heq, hfirst, hlen⟩ := ih ⟨r.first + 1, r.last, by omega⟩ (by simp only; omega)
    have hids : r.ids = (single r.first).ids ++ (⟨r.first + 1, r.last, by omega⟩ : IdRange).ids :=
      ids_eq_append rfl rfl rfl
    have hfoldr : r.ids.foldr cons rs = cons r.first (s :: ss) := by
      rw [← heq, hids, ids_single]
      rfl
    refine ⟨⟨r.first, s.last, ?_⟩, ss, ?_, rfl, hlen⟩
    · have hs := s.first_le_last
      simp only at hfirst
      omega
    · rw [hfoldr, cons, dif_pos hfirst.symm]

/-- **No shorter list of ranges holds the same ids.** -/
theorem length_idRanges_le (rs : List IdRange) :
    (idRanges (rs.flatMap ids)).length ≤ rs.length := by
  unfold idRanges
  induction rs with
  | nil => exact le_rfl
  | cons r rs ih =>
    have hr := r.first_le_last
    obtain ⟨s, ss, heq, -, hlen⟩ := foldr_cons_ids (r.last - r.first).toNat r (by omega)
      ((rs.flatMap ids).foldr cons [])
    rw [List.flatMap_cons, List.foldr_append, heq, List.length_cons, List.length_cons]
    omega

/-! ## Texts of ranges -/

/-- The characters spell the range: a number alone, or two numbers with a hyphen between them, the
smaller one first. -/
inductive Spells : List Char → IdRange → Prop
  | number {cs : List Char} {id : Int} (hid : integerOfChars? cs = some id) : Spells cs (single id)
  | bounds {cs ds : List Char} {a b : Int} (ha : integerOfChars? cs = some a)
      (hb : integerOfChars? ds = some b) (hlt : a < b) :
      Spells (cs ++ '-' :: ds) ⟨a, b, Int.le_of_lt hlt⟩

/-- The text lists the ranges: there are none, or commas stand between the parts that spell them.
Blanks at the ends of a part are left aside. -/
inductive Lists : String → List IdRange → Prop
  | none : Lists "" []
  | some {text : String} {rs : List IdRange} (h : List.Forall₂
      (fun part r => Spells (Text.trimChars part) r) (Text.splitAt ',' text.toList) rs) :
      Lists text rs

/-- Behind its first character, which may be a sign, there is no hyphen in a number. -/
theorem exists_cons_of_integerOfChars? {cs : List Char} {id : Int}
    (h : integerOfChars? cs = some id) : ∃ c ds, cs = c :: ds ∧ '-' ∉ ds := by
  obtain ⟨i, hi, -⟩ := Option.map_eq_some_iff.mp h
  obtain ⟨sign, hsign, hcs⟩ := Decimal.takeSign_spec cs
  rw [integer64OfChars?] at hi
  generalize takeSign cs = taken at hi hsign hcs
  obtain ⟨negative, digits⟩ := taken
  obtain ⟨n, hn, -⟩ := Option.bind_eq_some_iff.mp hi
  obtain ⟨hne, hdigits, -⟩ := Decimal.digits?_eq_some_iff.mp hn
  obtain ⟨d, ds, rfl⟩ := List.exists_cons_of_ne_nil hne
  have hhyphen : '-' ∉ d :: ds := fun hmem => absurd (hdigits _ hmem) (by decide)
  rw [hcs]
  cases hsign with
  | none => exact ⟨d, ds, rfl, fun hmem => hhyphen (List.mem_cons_of_mem _ hmem)⟩
  | plus | minus => exact ⟨_, d :: ds, rfl, hhyphen⟩

/-- **A text spells one range at most**: of its hyphens the one between the bounds is the first that
does not begin the text. -/
theorem Spells.unique {cs : List Char} (hr : Spells cs r) (hs : Spells cs s) : r = s := by
  -- A number has no hyphen where bounds have theirs.
  have hmixed : ∀ {as bs : List Char} {id a : Int}, integerOfChars? as = some a →
      integerOfChars? (as ++ '-' :: bs) = some id → False := by
    intro as bs id a ha hid
    obtain ⟨c, ds, rfl, -⟩ := exists_cons_of_integerOfChars? ha
    obtain ⟨c', ds', heq, hhyphen⟩ := exists_cons_of_integerOfChars? hid
    obtain ⟨-, rfl⟩ := List.cons.inj heq
    exact hhyphen (by simp)
  cases hr with
  | number hid =>
    cases hs with
    | number hid' => rw [Option.some.inj (hid.symm.trans hid')]
    | bounds ha _ _ => exact (hmixed ha hid).elim
  | @bounds as bs a b ha hb hlt =>
    generalize htext : as ++ '-' :: bs = text at hs
    cases hs with
    | number hid => exact (hmixed ha (htext ▸ hid)).elim
    | @bounds as' bs' a' b' ha' hb' hlt' =>
      obtain ⟨c, ds, rfl, hds⟩ := exists_cons_of_integerOfChars? ha
      obtain ⟨c', ds', rfl, hds'⟩ := exists_cons_of_integerOfChars? ha'
      obtain ⟨rfl, hrest⟩ := List.cons.inj htext
      obtain ⟨rfl, rfl⟩ := Text.append_cons_inj hds hds' hrest
      obtain rfl := Option.some.inj (ha.symm.trans ha')
      obtain rfl := Option.some.inj (hb.symm.trans hb')
      rfl

theorem not_spells_nil (r : IdRange) : ¬Spells [] r := by
  intro h
  generalize hcs : ([] : List Char) = cs at h
  cases h with
  | number hid =>
    obtain ⟨c, ds, heq, -⟩ := exists_cons_of_integerOfChars? hid
    exact nomatch hcs.trans heq
  | bounds => exact absurd hcs.symm (by simp)

/-- **A text lists one list of ranges at most.** -/
theorem Lists.unique {text : String} (hr : Lists text rs) (hs : Lists text ss) : rs = ss := by
  have hempty : ∀ {ts : List IdRange}, List.Forall₂ (fun part r => Spells (Text.trimChars part) r)
      (Text.splitAt ',' "".toList) ts → False := by
    intro ts h
    cases h with
    | cons h _ => exact not_spells_nil _ h
  cases hr with
  | none =>
    cases hs with
    | none => rfl
    | some h => exact (hempty h).elim
  | some h =>
    cases hs with
    | none => exact (hempty h).elim
    | some h' =>
      exact Relator.RightUnique.forall₂ (fun _ _ _ hr hs => hr.unique hs) h h'

/-! ## The text of a list of ids -/

theorem integerOfChars?_formatInteger {id : Int} (h : minInteger ≤ id ∧ id ≤ maxInteger) :
    integerOfChars? (formatInteger id).toList = some id := by
  have hread := parseInteger64?_formatInteger ⟨id, h⟩
  rw [parseInteger64?, Text.trimChars_eq_self fun c hc => not_isBlank_of_mem_formatInteger hc]
    at hread
  rw [integerOfChars?, hread, Option.map_some]

theorem toList_text (r : IdRange) : r.text.toList =
    if r.first = r.last then (formatInteger r.first).toList
    else (formatInteger r.first).toList ++ '-' :: (formatInteger r.last).toList := by
  rw [text]
  split
  · rfl
  · rw [String.toList_append, String.toList_append, List.append_assoc]
    rfl

/-- A range is spelled as it is shown. -/
theorem spells_text (hfirst : minInteger ≤ r.first) (hlast : r.last ≤ maxInteger) :
    Spells r.text.toList r := by
  have hr := r.first_le_last
  obtain ⟨a, b, hab⟩ := r
  simp only at hfirst hlast hr
  rw [toList_text]
  simp only
  split
  · rename_i heq
    subst heq
    exact .number (integerOfChars?_formatInteger ⟨hfirst, hlast⟩)
  · exact .bounds (integerOfChars?_formatInteger ⟨hfirst, by omega⟩)
      (integerOfChars?_formatInteger ⟨by omega, hlast⟩) (by omega)

/-- Neither a blank nor a comma stands in what is shown of a range. -/
theorem plain_text {c : Char} (h : c ∈ r.text.toList) : Text.isBlank c = false ∧ c ≠ ',' := by
  have hinteger : ∀ id : Int, c ∈ (formatInteger id).toList → Text.isBlank c = false ∧ c ≠ ',' := by
    intro id hc
    refine ⟨not_isBlank_of_mem_formatInteger hc, ?_⟩
    rintro rfl
    rw [formatInteger_toList] at hc
    split at hc
    · rcases List.mem_cons.mp hc with hc | hc
      · exact absurd hc (by decide)
      · exact absurd (isDigit_of_mem_toDigits hc) (by decide)
    · exact absurd (isDigit_of_mem_toDigits hc) (by decide)
  rw [toList_text] at h
  split at h
  · exact hinteger _ h
  · rcases List.mem_append.mp h with h | h
    · exact hinteger _ h
    · rcases List.mem_cons.mp h with rfl | h
      · decide
      · exact hinteger _ h

/-- The parts of a text are what is shown of the ranges. In front of the first there may be blanks
that belong to no part. -/
theorem forall₂_splitAt (hbounds : ∀ r ∈ rs, minInteger ≤ r.first ∧ r.last ≤ maxInteger)
    (hne : rs ≠ []) {lead : List Char} (hlead : ∀ c ∈ lead, Text.isBlank c = true) :
    List.Forall₂ (fun part r => Spells (Text.trimChars part) r)
      (Text.splitAt ',' (lead ++ (", ".intercalate (rs.map text)).toList)) rs := by
  have hcomma : ∀ (r : IdRange) {lead : List Char}, (∀ c ∈ lead, Text.isBlank c = true) →
      ',' ∉ lead ++ r.text.toList := by
    intro r lead hlead hmem
    rcases List.mem_append.mp hmem with hmem | hmem
    · exact absurd (hlead _ hmem) (by decide)
    · exact (plain_text hmem).2 rfl
  have hspells : ∀ r ∈ rs, ∀ {lead : List Char}, (∀ c ∈ lead, Text.isBlank c = true) →
      Spells (Text.trimChars (lead ++ r.text.toList)) r := by
    intro r hr lead hlead
    rw [Text.trimChars_append_left hlead, Text.trimChars_eq_self fun c hc => (plain_text hc).1]
    exact spells_text (hbounds r hr).1 (hbounds r hr).2
  induction rs generalizing lead with
  | nil => exact absurd rfl hne
  | cons r rs ih =>
    cases rs with
    | nil =>
      rw [List.map_singleton, String.intercalate_singleton,
        Text.splitAt_of_not_mem (hcomma r hlead)]
      exact .cons (hspells r (List.mem_cons_self ..) hlead) .nil
    | cons s rs =>
      have htext : lead ++ (", ".intercalate ((r :: s :: rs).map text)).toList =
          (lead ++ r.text.toList) ++
            ',' :: ([' '] ++ (", ".intercalate ((s :: rs).map text)).toList) := by
        simp
      rw [htext, Text.splitAt_append_cons (hcomma r hlead)]
      refine .cons (hspells r (List.mem_cons_self ..) hlead) (ih ?_ (List.cons_ne_nil _ _) ?_ ?_)
      · exact fun t ht => hbounds t (List.mem_cons_of_mem _ ht)
      · exact List.forall_mem_singleton.mpr rfl
      · exact fun t ht => hspells t (List.mem_cons_of_mem _ ht)

/-- **What is shown of ids lists their ranges.** -/
theorem lists_formatIdRanges {ids : List Int}
    (h : ∀ id ∈ ids, minInteger ≤ id ∧ id ≤ maxInteger) :
    Lists (formatIdRanges ids) (idRanges ids) := by
  rw [formatIdRanges]
  by_cases hne : idRanges ids = []
  · rw [hne]
    exact .none
  · have hlead : ∀ c ∈ ([] : List Char), Text.isBlank c = true := by simp
    refine .some (forall₂_splitAt (fun r hr => ?_) hne hlead)
    obtain ⟨hfirst, hlast⟩ := mem_of_mem_idRanges hr
    exact ⟨(h _ hfirst).1, (h _ hlast).2⟩

/-- **Ids are shown without loss, and in as few ranges as can be.** The text has one reading, and
the ranges read hold the ids in their order. No two neighbours make one range, and the ids cannot be
had from fewer ranges. The id behind each range is one of 64 bits, so that it can be compared with
the id that follows. -/
theorem reads_formatIdRanges {ids : List Int}
    (h : ∀ id ∈ ids, minInteger ≤ id ∧ id < maxInteger) :
    ∃ rs, (∀ ss, Lists (formatIdRanges ids) ss ↔ ss = rs) ∧ rs.flatMap IdRange.ids = ids ∧
      (rs.IsChain fun r s => ∀ t : IdRange, t.ids ≠ r.ids ++ s.ids) ∧
      (∀ ss : List IdRange, ss.flatMap IdRange.ids = ids → rs.length ≤ ss.length) ∧
      ∀ r ∈ rs, minInteger ≤ r.first ∧ r.last + 1 ≤ maxInteger := by
  have hlists : Lists (formatIdRanges ids) (idRanges ids) :=
    lists_formatIdRanges fun id hid => ⟨(h id hid).1, Int.le_of_lt (h id hid).2⟩
  refine ⟨idRanges ids, fun ss => ⟨fun hss => hss.unique hlists, ?_⟩, flatMap_ids_idRanges ids,
    ?_, ?_, fun r hr => ?_⟩
  · rintro rfl
    exact hlists
  · exact (isChain_idRanges ids).imp fun r s hne t ht =>
      hne (last_add_one_eq_of_ids_eq_append ht)
  · rintro ss rfl
    exact length_idRanges_le ss
  · obtain ⟨hfirst, hlast⟩ := mem_of_mem_idRanges hr
    exact ⟨(h _ hfirst).1, (h _ hlast).2⟩

/-- Unsorted ids, one of them twice. The hyphens of `-3--1` are a sign, the mark between the bounds,
and a sign. -/
theorem reads_formatIdRanges_unsorted :
    (∀ id ∈ [7, -3, -2, -1, -1, 0], minInteger ≤ id ∧ id < maxInteger) ∧
    formatIdRanges [7, -3, -2, -1, -1, 0] = "7, -3--1, -1-0" ∧
    ∃ rs, (∀ ss, Lists "7, -3--1, -1-0" ss ↔ ss = rs) ∧
      rs.flatMap IdRange.ids = [7, -3, -2, -1, -1, 0] := by
  have hids : ∀ id ∈ [7, -3, -2, -1, -1, 0], minInteger ≤ id ∧ id < maxInteger := by decide
  have htext : formatIdRanges [7, -3, -2, -1, -1, 0] = "7, -3--1, -1-0" := by decide +kernel
  obtain ⟨rs, hreads, hflat, -⟩ := reads_formatIdRanges hids
  exact ⟨hids, htext, rs, fun ss => htext ▸ hreads ss, hflat⟩

end IdRange

end CimStore

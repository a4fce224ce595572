import CimStore.Proofs.Reexport

/-!
# Reference texts that are set again

A reference is set from a text, normalised: without blanks around it and without one mark. What it
reports is set a second time when the object is read from a payload, and when it is loaded from a
store, and is normalised again.

* `normalizeId_normalizeId_iff`: this changes an id if and only if the text was nested, with a mark
  or a blank behind its mark (`IsNested`);
* `normalizeId_eq_of_image`: a set of ids that comes out again has no id that is changed;
* `Slot.read_reloaded_iff`: a reference is loaded as it was stored if and only if its targets are
  kept as they are;
* `Descriptor.write_texts`: what a new reference is set to from several texts;
* `Object.setAll_again`: what an object reports of the attribute, the first time and again.
-/

namespace CimStore

/-! ## Ids that are normalised again -/

/-- The characters without one leading mark. -/
def unmark : List Char → List Char
  | '#' :: cs => cs
  | cs => cs

theorem unmark_of_head?_ne {cs : List Char} (h : cs.head? ≠ some '#') : unmark cs = cs := by
  unfold unmark
  split
  · exact absurd rfl h
  · rfl

theorem sublist_unmark (cs : List Char) : (unmark cs).Sublist cs := by
  unfold unmark
  split
  · exact List.sublist_cons_self ..
  · exact List.Sublist.refl _

theorem unmark_eq_self_iff {cs : List Char} : unmark cs = cs ↔ cs.head? ≠ some '#' := by
  refine ⟨fun h hmark => ?_, unmark_of_head?_ne⟩
  obtain ⟨ds, rfl⟩ := List.head?_eq_some_iff.mp hmark
  exact absurd (congrArg List.length h) (by simp [unmark])

/-- An id is kept without blanks around it and without one leading mark. -/
theorem toList_normalizeId (text : String) :
    (normalizeId text).toList = unmark (Text.trimChars text.toList) := by
  unfold normalizeId unmark
  split <;> simp [*]

/-- A text that is kept as it is has no blanks around it and does not begin with a mark. -/
theorem normalizeId_eq_self_iff {text : String} : normalizeId text = text ↔
    Text.IsTrimmed text.toList ∧ text.toList.head? ≠ some '#' := by
  rw [← String.toList_inj, toList_normalizeId]
  constructor
  · intro h
    have hsublist := sublist_unmark (Text.trimChars text.toList)
    rw [h] at hsublist
    have htrim : Text.trimChars text.toList = text.toList :=
      (Text.sublist_trimChars _).antisymm hsublist
    rw [htrim, unmark_eq_self_iff] at h
    exact ⟨htrim ▸ Text.isTrimmed_trimChars _, h⟩
  · rintro ⟨htrimmed, hmark⟩
    rw [htrimmed.trimChars_eq, unmark_of_head?_ne hmark]

/-- A text that is not kept as it is is kept as a shorter one. -/
theorem normalizeId_eq_of_length {text : String} (h : text.length ≤ (normalizeId text).length) :
    normalizeId text = text := by
  rw [← String.length_toList, ← String.length_toList, toList_normalizeId] at h
  rw [← String.toList_inj, toList_normalizeId]
  exact ((sublist_unmark _).trans (Text.sublist_trimChars _)).eq_of_length_le h

/-- The text, without blanks around it, is a mark with another mark or a blank behind it. -/
def IsNested (text : String) : Prop :=
  ∃ c cs, Text.trimChars text.toList = '#' :: c :: cs ∧ (c = '#' ∨ Text.isBlank c = true)

/-- **An id is normalised once for all, unless the text was nested.** -/
theorem normalizeId_normalizeId_iff {text : String} :
    normalizeId (normalizeId text) = normalizeId text ↔ ¬IsNested text := by
  rw [normalizeId_eq_self_iff, toList_normalizeId]
  have htrimmed := Text.isTrimmed_trimChars text.toList
  unfold IsNested
  generalize Text.trimChars text.toList = cs at htrimmed
  by_cases hmark : cs.head? = some '#'
  · obtain ⟨ds, rfl⟩ := List.head?_eq_some_iff.mp hmark
    cases ds with
    | nil => exact iff_of_true ⟨⟨by simp [unmark], by simp [unmark]⟩, by simp [unmark]⟩ (by simp)
    | cons c ds =>
      -- The end is that of the trimmed text, so only the beginning counts.
      have hlast : Text.IsTrimmed (c :: ds) ↔ Text.isBlank c = false :=
        ⟨fun h => h.first (List.cons_ne_nil _ _), fun h => ⟨fun _ => h, fun hne => by
          rw [← List.getLast_cons hne]
          exact htrimmed.last (List.cons_ne_nil _ _)⟩⟩
      show Text.IsTrimmed (c :: ds) ∧ some c ≠ some '#' ↔ _
      rw [hlast]
      simp [and_comm]
  · rw [unmark_of_head?_ne hmark]
    refine iff_of_true ⟨htrimmed, hmark⟩ ?_
    rintro ⟨c, ds, rfl, -⟩
    exact hmark rfl

instance (text : String) : Decidable (IsNested text) :=
  decidable_of_iff (normalizeId (normalizeId text) ≠ normalizeId text)
    (not_congr normalizeId_normalizeId_iff |>.trans not_not)

/-- Ids that come out again when all of them are normalised are kept as they are: the longest cannot
come from others. -/
theorem normalizeId_eq_of_image {ids : List String}
    (h : ∀ t ∈ ids, ∃ u ∈ ids, normalizeId u = t) {t : String} (ht : t ∈ ids) :
    normalizeId t = t := by
  obtain ⟨bound, hbound⟩ : ∃ bound, ∀ t ∈ ids, t.length ≤ bound :=
    ⟨(ids.map String.length).sum, fun t ht => List.le_sum_of_mem (List.mem_map_of_mem ht)⟩
  suffices ∀ n t, t ∈ ids → bound ≤ t.length + n → normalizeId t = t from
    this bound t ht (by omega)
  intro n
  induction n with
  | zero =>
    intro t ht hlong
    obtain ⟨u, hu, rfl⟩ := h t ht
    have hkept : normalizeId u = u := normalizeId_eq_of_length ((hbound u hu).trans hlong)
    rw [hkept, hkept]
  | succ n ih =>
    intro t ht hlong
    obtain ⟨u, hu, rfl⟩ := h t ht
    have hkept : normalizeId u = u := by
      by_cases hle : u.length ≤ (normalizeId u).length
      · exact normalizeId_eq_of_length hle
      · exact ih u hu (by omega)
    rw [hkept, hkept]

/-! ## Slots that are set again -/

namespace Reference

theorem isLinked_ofId (text : String) : (ofId text).isLinked = false := by
  unfold ofId setId
  simp only
  split <;> rfl

theorem setId_of_isLinked_eq_false {r : Reference} (h : r.isLinked = false) (text : String) :
    r.setId text = ofId text := by
  have hempty : empty.isLinked = false := rfl
  simp [ofId, setId, h, hempty]

theorem target?_ofId {text t : String} :
    (ofId text).target? = some t ↔ t ≠ "" ∧ normalizeId text = t := by
  unfold ofId setId
  simp only [isLinked, link?, Option.isSome_none, Bool.false_and, Bool.false_eq_true, if_false]
  split
  · rename_i hempty
    simp only [target?, hempty]
    constructor
    · intro h
      cases h
    · exact fun h => absurd h.2.symm h.1
  · rename_i hne
    simp only [target?, Option.some.injEq]
    constructor
    · rintro rfl
      exact ⟨hne, rfl⟩
    · exact fun h => h.2

end Reference

namespace ReferenceSet

theorem mem_ids_iff {s : ReferenceSet} {t : String} :
    t ∈ s.ids ↔ s.members.contains t = true := by
  rw [ids, SortedMap.mem_keys, SortedMap.contains_iff]

theorem mem_ids_addId {s : ReferenceSet} {text t : String} :
    t ∈ (s.addId text).ids ↔ t ∈ s.ids ∨ t ≠ "" ∧ normalizeId text = t := by
  unfold addId
  simp only
  split
  · rename_i hold
    refine ⟨.inl, ?_⟩
    rintro (ht | ⟨hne, rfl⟩)
    · exact ht
    · exact mem_ids_iff.mpr (by simpa [hne] using hold)
  · rename_i hnew
    have hne : normalizeId text ≠ "" := fun h => hnew (by simp [h])
    rw [mem_ids_iff, mem_ids_iff, SortedMap.contains_insert, or_comm]
    refine or_congr_right ⟨?_, fun h => h.2⟩
    rintro rfl
    exact ⟨hne, rfl⟩

/-- A set has the ids that are not empty of all texts that were added. -/
theorem mem_ids_foldl_addId {s : ReferenceSet} {texts : List String} {t : String} :
    t ∈ (texts.foldl addId s).ids ↔ t ∈ s.ids ∨ t ≠ "" ∧ ∃ x ∈ texts, normalizeId x = t := by
  induction texts generalizing s with
  | nil => simp
  | cons x xs ih =>
    rw [List.foldl_cons, ih, mem_ids_addId, or_assoc, ← and_or_left]
    simp only [List.mem_cons, exists_eq_or_imp]

end ReferenceSet

namespace Slot

variable {s t : Slot}

/-- The texts from which a reference can be set again are the ids of its targets. -/
theorem inputs_read (hkind : s.sort.kind.isReference = true) :
    s.read.elim [] Value.inputs = s.targets := by
  cases s with
  | string | float | integer | boolean | phaseCode => exact nomatch hkind
  | reference r => cases r <;> rfl
  | referenceSet s =>
    have hids : s.isEmpty = true → s.ids = [] := fun h => by
      simpa [ReferenceSet.isEmpty, SortedMap.isEmpty, ReferenceSet.ids, SortedMap.keys] using h
    by_cases hempty : s.isEmpty
    · simp [read, targets, hempty, hids]
    · simp [read, targets, hempty, Value.inputs]

theorem read_eq_iff (hkind : s.sort.kind.isReference = true) (hsort : t.sort = s.sort) :
    t.read = s.read ↔ t.targets = s.targets := by
  refine ⟨fun h => ?_, read_congr hkind hsort⟩
  rw [← inputs_read hkind, ← inputs_read (hsort ▸ hkind), h]

theorem mem_targets_reloaded (hkind : s.sort.kind.isReference = true) {u : String} :
    u ∈ s.reloaded.targets ↔ u ≠ "" ∧ ∃ x ∈ s.targets, normalizeId x = u := by
  cases s with
  | string | float | integer | boolean | phaseCode => exact nomatch hkind
  | reference r =>
    cases htarget : r.target? with
    | none =>
      have hempty : Reference.empty.target? = none := rfl
      simp [reloaded, targets, htarget, hempty]
    | some x => simp [reloaded, targets, htarget, Reference.target?_ofId]
  | referenceSet s =>
    exact ReferenceSet.mem_ids_foldl_addId.trans (or_iff_right List.not_mem_nil)

/-- **A reference is reported as before after it was stored and loaded** if and only if all its
targets are kept as they are. -/
theorem read_reloaded_iff (hkind : s.sort.kind.isReference = true) (hproper : s.IsProper) :
    s.reloaded.read = s.read ↔ ∀ u ∈ s.targets, normalizeId u = u := by
  rw [read_eq_iff hkind s.sort_reloaded]
  constructor
  · intro h u hu
    refine normalizeId_eq_of_image (fun u hu => ?_) hu
    rw [← h, mem_targets_reloaded hkind] at hu
    exact hu.2
  · intro h
    rw [reloaded_eq_bare fun u hu => ⟨hproper u hu, h u hu⟩, targets_bare]

end Slot

namespace Descriptor

variable {d : Descriptor}

/-- The texts that decide what a reference is set to: all for a set, else the last one. -/
def lasting (d : Descriptor) (texts : List String) : List String :=
  if d.kind = .referenceSet then texts else texts.getLast?.toList

theorem write_reference (d : Descriptor) (texts : List String) {r : Reference}
    (hr : r.isLinked = false) : texts.foldlM (fun slot t => d.write t slot) (.reference r) =
      (.ok (.reference (texts.getLast?.elim r Reference.ofId)) : Except Error Slot) := by
  induction texts generalizing r with
  | nil => rfl
  | cons x xs ih =>
    show xs.foldlM (fun slot t => d.write t slot) (.reference (r.setId x)) = _
    rw [Reference.setId_of_isLinked_eq_false hr, ih (Reference.isLinked_ofId x), List.getLast?_cons]
    cases xs.getLast? <;> rfl

/-- **What a new reference is set to** from several texts. -/
theorem write_texts (hkind : d.kind.isReference = true) (texts : List String) :
    ∃ s, texts.foldlM (fun slot t => d.write t slot) d.sort.emptySlot = .ok s ∧ s.sort = d.sort ∧
      ∀ u, u ∈ s.targets ↔ u ≠ "" ∧ ∃ x ∈ d.lasting texts, normalizeId x = u := by
  unfold kind at hkind
  unfold lasting kind
  cases hsort : d.sort with
  | string | float | integer | boolean | phaseCode =>
    rw [hsort] at hkind
    exact nomatch hkind
  | reference =>
    refine ⟨_, write_reference d texts rfl, rfl, fun u => ?_⟩
    cases texts.getLast? with
    | none => simp [Slot.targets, Reference.target?, AttributeSort.kind]
    | some x => simp [Slot.targets, Reference.target?_ofId, AttributeSort.kind]
  | referenceSet =>
    refine ⟨_, write_members d texts .empty, rfl, fun u => ?_⟩
    exact ReferenceSet.mem_ids_foldl_addId.trans (or_iff_right List.not_mem_nil)

/-- Set from its targets, a new reference is as it is loaded. -/
theorem write_targets {s : Slot} (hkind : d.kind.isReference = true) (hsort : s.sort = d.sort) :
    s.targets.foldlM (fun slot t => d.write t slot) d.sort.emptySlot = .ok s.reloaded := by
  rw [← hsort]
  unfold kind at hkind
  rw [← hsort] at hkind
  cases s with
  | string | float | integer | boolean | phaseCode => exact nomatch hkind
  | reference r => cases r <;> rfl
  | referenceSet s => exact write_members d s.ids .empty

end Descriptor

/-! ## Objects that are set again -/

namespace Object

variable {c : CimClass} {d : Descriptor} {name : String}

/-- The attribute of a new object. -/
theorem field?_new (hd : c.find? name = some d) :
    (new c).field? name = some (.empty d) := by
  show (c.attributes.map Field.empty).find? _ = _
  rw [List.find?_map]
  exact congrArg (Option.map Field.empty) hd

/-- What is found under a name is found there after the object has been stored and loaded. -/
theorem field?_reloaded {o : Object} {f : Field} (h : o.field? name = some f) (id : Int)
    (rdfid : String) (model : Int) : (o.reloaded id rdfid model).field? name = some f.reloaded := by
  show (o.fields.map Field.reloaded).find? _ = _
  have hnames : (fun f : Field => f.about.isNamed name) ∘ Field.reloaded =
      fun f => f.about.isNamed name :=
    funext fun f => congrArg (Descriptor.isNamed · name) f.about_reloaded
  rw [List.find?_map, hnames]
  exact congrArg (Option.map Field.reloaded) h

/-- **A reference that is set again** on a new object, from what it is reported to hold. The ids
that are reported are those of the texts that count, normalised, and not empty. They are reported
again if and only if none of these texts is nested. In a payload the reported value has the same
effect, and so has storing and loading. -/
theorem setAll_again (hd : c.find? name = some d)
    (hkind : d.kind.isReference = true) (texts : List String) :
    ∃ o o' v, (new c).setAll name texts = .ok o ∧ o.get name = .ok v ∧
      (∀ u, u ∈ v.elim [] Value.inputs ↔ u ≠ "" ∧ ∃ x ∈ d.lasting texts, normalizeId x = u) ∧
      (new c).setAll name (v.elim [] Value.inputs) = .ok o' ∧
      (o'.get name = .ok v ↔ ∀ x ∈ d.lasting texts, ¬IsNested x) ∧
      (∀ w, v = some w → (new c).setValue name w = .ok o') ∧
      (d.isUsed = true → ∀ id rdfid model,
        (o.reloaded id rdfid model).get name = o'.get name) := by
  have hfield : (new c).field? name = some (.empty d) := field?_new hd
  obtain ⟨s, hwrite, hsort, htargets⟩ := d.write_texts hkind texts
  have hskind : s.sort.kind.isReference = true := hsort ▸ hkind
  have hinputs : s.read.elim [] Value.inputs = s.targets := Slot.inputs_read hskind
  have hagain := hinputs ▸ d.write_targets hkind hsort
  -- What is written into the slot is found and read under the name.
  have hfound : ∀ t : Slot,
      ((new c).replace name t).field? name = some ((Field.empty d).withSlot t) :=
    fun t => Field.find?_replace hfield
  have hslot : ∀ t : Slot, t.sort = d.sort → ((Field.empty d).withSlot t).slot = t :=
    fun t => Field.slot_withSlot (f := .empty d)
  have hget : ((new c).replace name s).get name = .ok s.read := by
    rw [get_of_field? (hfound s), hslot s hsort]
  have hget' : ((new c).replace name s.reloaded).get name = .ok s.reloaded.read := by
    rw [get_of_field? (hfound s.reloaded), hslot s.reloaded (s.sort_reloaded.trans hsort)]
  refine ⟨_, _, s.read, setAll_eq hfield hwrite, hget, hinputs ▸ htargets,
    setAll_eq hfield hagain, ?_, fun w hw => ?_, fun hused id rdfid model => ?_⟩
  · have hproper : s.IsProper := fun u hu => ((htargets u).mp hu).1
    rw [hget', Except.ok.injEq, Slot.read_reloaded_iff hskind hproper]
    constructor
    · intro hkept x hx
      rw [← normalizeId_normalizeId_iff]
      by_cases hempty : normalizeId x = ""
      · rw [hempty]
        decide +kernel
      · exact hkept _ ((htargets _).mpr ⟨hempty, x, hx, rfl⟩)
    · intro hnested u hu
      obtain ⟨-, x, hx, rfl⟩ := (htargets u).mp hu
      exact normalizeId_normalizeId_iff.mpr (hnested x hx)
  · refine setValue_eq hfield (fun ts hts => ?_) (by rw [hw] at hagain; exact hagain)
    rcases Slot.read_reference hskind (by rw [hw]; rfl) with ⟨t, -, hread, -⟩ | ⟨hset, -⟩
    · rw [hw, hts] at hread
      exact nomatch hread
    · rw [hsort] at hset
      exact hset
  · rw [hget', get_of_field? (field?_reloaded (hfound s) id rdfid model),
      Field.slot_reloaded (by rw [Field.about_withSlot]; exact hused), hslot s hsort]

/-- The value that is read after texts were set is the one that is computed. -/
theorem eq_of_setAll_get {c : CimClass} {name : String} {texts : List String} {o : Object}
    {v w : Option Value} (hset : (new c).setAll name texts = .ok o) (hget : o.get name = .ok v)
    (h : ((new c).setAll name texts >>= (·.get name)) = .ok w) : v = w := by
  rw [hset] at h
  exact Except.ok.inj (hget.symm.trans h)

/-- A terminal points at other equipment when it is set again from a text with two marks, and an
island loses a member. From the last text, with one mark, the terminal is set for good. -/
theorem setAll_again_marks :
    (∃ o o', (new .terminal).setAll "ConductingEquipment" ["#_b1", "##_b2"] = .ok o ∧
      o.get "ConductingEquipment" = .ok (some (.text "#_b2")) ∧
      (new .terminal).setAll "ConductingEquipment" ["#_b2"] = .ok o' ∧
      o'.get "ConductingEquipment" ≠ .ok (some (.text "#_b2"))) ∧
    (∃ o o', (new .topologicalIsland).setAll "TopologicalNodes" ["#_n1", "##_n1"] = .ok o ∧
      o.get "TopologicalNodes" = .ok (some (.texts ["#_n1", "_n1"])) ∧
      (new .topologicalIsland).setAll "TopologicalNodes" ["#_n1", "_n1"] = .ok o' ∧
      o'.get "TopologicalNodes" ≠ .ok (some (.texts ["#_n1", "_n1"]))) ∧
    ∃ o o', (new .terminal).setAll "ConductingEquipment" ["##_b2", " #_b1"] = .ok o ∧
      o.get "ConductingEquipment" = .ok (some (.text "_b1")) ∧
      (new .terminal).setAll "ConductingEquipment" ["_b1"] = .ok o' ∧
      o'.get "ConductingEquipment" = .ok (some (.text "_b1")) := by
  have hequipment : (CimClass.terminal.find? "ConductingEquipment").any
      (·.kind = .reference) = true := by decide +kernel
  have hnodes : (CimClass.topologicalIsland.find? "TopologicalNodes").any
      (·.kind = .referenceSet) = true := by decide +kernel
  obtain ⟨d, hd, hkind⟩ := (Option.any_eq_true ..).mp hequipment
  obtain ⟨e, he, hset⟩ := (Option.any_eq_true ..).mp hnodes
  have hkind : d.kind = .reference := by simpa using hkind
  have hset : e.kind = .referenceSet := by simpa using hset
  refine ⟨?_, ?_, ?_⟩
  · obtain ⟨o, o', v, ho, hv, -, ho', hiff, -⟩ :=
      setAll_again hd (by rw [hkind]; rfl) ["#_b1", "##_b2"]
    obtain rfl := eq_of_setAll_get ho hv (w := some (.text "#_b2")) (by decide +kernel)
    refine ⟨o, o', ho, hv, ho', fun h => ?_⟩
    have hlast := hiff.mp h "##_b2" (by simp [Descriptor.lasting, hkind])
    exact absurd hlast (by decide +kernel)
  · obtain ⟨o, o', v, ho, hv, -, ho', hiff, -⟩ :=
      setAll_again he (by rw [hset]; rfl) ["#_n1", "##_n1"]
    obtain rfl := eq_of_setAll_get ho hv (w := some (.texts ["#_n1", "_n1"])) (by decide +kernel)
    refine ⟨o, o', ho, hv, ho', fun h => ?_⟩
    have hlast := hiff.mp h "##_n1" (by simp [Descriptor.lasting, hset])
    exact absurd hlast (by decide +kernel)
  · obtain ⟨o, o', v, ho, hv, -, ho', hiff, -⟩ :=
      setAll_again hd (by rw [hkind]; rfl) ["##_b2", " #_b1"]
    obtain rfl := eq_of_setAll_get ho hv (w := some (.text "_b1")) (by decide +kernel)
    refine ⟨o, o', ho, hv, ho', hiff.mpr fun x hx => ?_⟩
    obtain rfl : x = " #_b1" := by simpa [Descriptor.lasting, hkind] using hx
    decide +kernel

end Object

end CimStore

import CimStore.Proofs.Reading

/-!
# Linking

A visit of an attribute links exactly the targets that are found and admitted:

* `Object.linkField_spec`: a visited attribute keeps its targets and gets one link for each of them
  that is found and admitted;
* `Graph.get?_links`: found are the objects of the graph, each at its position.
-/

namespace CimStore

/-! ## One attribute -/

/-- The link that an attribute accepts for a target. -/
def Descriptor.choose (d : Descriptor) (links : SortedMap String Link) (target : String) :
    Option Link :=
  (links.get? target).filter fun l => d.admits l.cimType

theorem Descriptor.choose_eq_some {d : Descriptor} {links : SortedMap String Link}
    {target : String} {l : Link} :
    d.choose links target = some l ↔ links.get? target = some l ∧ d.admits l.cimType = true :=
  Option.filter_eq_some_iff

/-- A target is reported once. -/
theorem Slot.nodup_targets (slot : Slot) : slot.targets.Nodup := by
  cases slot with
  | reference r => cases r <;> simp [Slot.targets, Reference.target?]
  | referenceSet s => exact s.members.keys_nodup
  | _ => exact List.nodup_nil

namespace Object

variable {links : SortedMap String Link} {o : Object} {d : Descriptor}

/-- Only an accepted link changes the slot. -/
theorem linkTarget_fst (slot : Slot) (target : String) :
    (o.linkTarget links d slot target).1 =
      (d.choose links target).elim slot fun l => (slot.link? l).getD slot := by
  unfold linkTarget Descriptor.choose
  cases links.get? target with
  | none => rfl
  | some l =>
    unfold Descriptor.link
    by_cases hadmits : d.admits l.cimType
    · cases hlink : slot.link? l <;> simp [hadmits, hlink, Option.filter_some]
    · simp [hadmits, Option.filter_some]

/-- The targets of a set are visited one by one: a member whose link is accepted is linked. -/
theorem linkTargets_referenceSet (hlinks : ∀ t l, links.get? t = some l → l.rdfid = t)
    (s : ReferenceSet) (ts : List String) :
    ∃ s', (o.linkTargets links d (.referenceSet s) ts).1 = .referenceSet s' ∧
      ∀ t, s'.members.get? t = if t ∈ ts then ((d.choose links t).map some).or (s.members.get? t)
        else s.members.get? t := by
  induction ts generalizing s with
  | nil => exact ⟨s, rfl, fun t => rfl⟩
  | cons a ts ih =>
    -- The first target, which leaves a set again.
    obtain ⟨s₁, hfirst, hget₁⟩ : ∃ s₁, (o.linkTarget links d (.referenceSet s) a).1 =
        .referenceSet s₁ ∧ ∀ t, s₁.members.get? t =
          if t = a then ((d.choose links t).map some).or (s.members.get? t)
          else s.members.get? t := by
      rw [linkTarget_fst]
      cases hc : d.choose links a with
      | none =>
        refine ⟨s, rfl, fun t => ?_⟩
        by_cases ht : t = a
        · rw [if_pos ht, ht, hc]
          rfl
        · rw [if_neg ht]
      | some l =>
        refine ⟨s.link l, rfl, fun t => ?_⟩
        have hrdfid := hlinks a l (Descriptor.choose_eq_some.mp hc).1
        rw [ReferenceSet.link, SortedMap.get?_insert, hrdfid]
        by_cases ht : a = t
        · rw [if_pos ht, if_pos ht.symm, ← ht, hc]
          rfl
        · rw [if_neg ht, if_neg (Ne.symm ht)]
    obtain ⟨s', hrest, hget⟩ := ih s₁
    refine ⟨s', ?_, fun t => ?_⟩
    · show (o.linkTargets links d (o.linkTarget links d (.referenceSet s) a).1 ts).1 = _
      rw [hfirst, hrest]
    · rw [hget, hget₁]
      cases hc : d.choose links t <;> by_cases h1 : t ∈ ts <;> by_cases h2 : t = a <;> simp [h1, h2]

/-- The members of a set after the visit, and with them its ids and links. -/
private theorem linkTargets_members (hlinks : ∀ t l, links.get? t = some l → l.rdfid = t)
    {s : ReferenceSet} (hnone : s.links = []) :
    ∃ s', (o.linkTargets links d (.referenceSet s) s.ids).1 = .referenceSet s' ∧
      s'.ids = s.ids ∧ s'.links = s.ids.filterMap (d.choose links) := by
  obtain ⟨s', hvisit, hget⟩ := linkTargets_referenceSet (o := o) (d := d) hlinks s s.ids
  refine ⟨s', hvisit, ?_⟩
  have hmembers : s'.members =
      s.members.mapValues fun t old => ((d.choose links t).map some).getD old := by
    refine SortedMap.ext_get? fun t => ?_
    rw [hget, SortedMap.get?_mapValues]
    cases hold : s.members.get? t with
    | none =>
      rw [if_neg]
      · rfl
      · intro hmem
        obtain ⟨v, hv⟩ := SortedMap.mem_keys.mp hmem
        exact nomatch hold.symm.trans hv
    | some old =>
      rw [if_pos (show t ∈ s.ids from SortedMap.mem_keys.mpr ⟨old, hold⟩)]
      cases d.choose links t <;> rfl
  have hold : ∀ e ∈ s.members.entries, e.2 = none := by
    intro e he
    have := List.filterMap_eq_nil_iff.mp hnone e.2 (List.mem_map_of_mem (f := (·.2)) he)
    exact this
  constructor
  · simp only [ReferenceSet.ids, SortedMap.keys, hmembers, SortedMap.entries_mapValues,
      List.map_map]
    rfl
  · simp only [ReferenceSet.links, ReferenceSet.ids, SortedMap.values, SortedMap.keys, hmembers,
      SortedMap.entries_mapValues, List.filterMap_map, List.map_map]
    refine List.filterMap_congr fun e he => ?_
    simp only [Function.comp_apply, hold e he]
    cases d.choose links e.1 <;> rfl

/-- A slot without links after its targets have been visited. -/
private theorem linkTargets_spec (hlinks : ∀ t l, links.get? t = some l → l.rdfid = t)
    {slot : Slot} (hnone : slot.links = []) :
    (o.linkTargets links d slot slot.targets).1.sort = slot.sort ∧
      (o.linkTargets links d slot slot.targets).1.targets = slot.targets ∧
      (o.linkTargets links d slot slot.targets).1.links =
        slot.targets.filterMap (d.choose links) := by
  cases slot with
  | reference r =>
    cases r with
    | empty => exact ⟨rfl, rfl, rfl⟩
    | linked l => exact nomatch hnone
    | unlinked t =>
      have hvisit : (o.linkTargets links d (.reference (.unlinked t)) [t]).1 =
          (d.choose links t).elim (.reference (.unlinked t)) fun l => .reference (.linked l) :=
        linkTarget_fst ..
      show (linkTargets links o d _ [t]).1.sort = _ ∧ (linkTargets links o d _ [t]).1.targets = _ ∧
        (linkTargets links o d _ [t]).1.links = [t].filterMap (d.choose links)
      rw [hvisit]
      cases hc : d.choose links t with
      | none => simp [hc, Slot.links, Reference.link?]
      | some l =>
        have hrdfid := hlinks t l (Descriptor.choose_eq_some.mp hc).1
        simp [hc, hrdfid, Slot.links, Reference.link?, Slot.targets, Reference.target?, Slot.sort]
  | referenceSet s =>
    obtain ⟨s', hvisit, hids, hlinked⟩ := linkTargets_members (o := o) (d := d) hlinks hnone
    show (linkTargets links o d _ s.ids).1.sort = _ ∧
      (linkTargets links o d _ s.ids).1.targets = _ ∧
      (linkTargets links o d _ s.ids).1.links = s.ids.filterMap (d.choose links)
    rw [hvisit]
    exact ⟨rfl, hids, hlinked⟩
  | string | float | integer | boolean | phaseCode => exact ⟨rfl, rfl, rfl⟩

/-- **A visited attribute** keeps its targets. If it is used, those are linked for which there is an
admitted link; else none. -/
theorem linkField_spec {f : Field} (hlinks : ∀ t l, links.get? t = some l → l.rdfid = t)
    (hnone : f.slot.links = []) :
    (o.linkField links f).1.slot.targets = f.slot.targets ∧
      (o.linkField links f).1.slot.links =
        if f.about.isUsed then f.slot.targets.filterMap (f.about.choose links) else [] := by
  obtain ⟨hsort, htargets, hlinked⟩ := linkTargets_spec (o := o) (d := f.about) hlinks hnone
  unfold linkField
  by_cases hused : f.about.isUsed
  · rw [if_pos hused]
    split
    · show (f.withSlot (linkTargets links o f.about f.slot f.slot.targets).1).slot.targets = _ ∧
        (f.withSlot (linkTargets links o f.about f.slot f.slot.targets).1).slot.links = _
      rw [Field.slot_withSlot (hsort.trans f.sort_slot)]
      exact ⟨htargets, hlinked⟩
    · rename_i hguard
      have hempty : f.slot.targets = [] := by simpa [hused] using hguard
      simp [hempty, hnone]
  · simp [hused, hnone]

/-- The links of a visited attribute. -/
theorem mem_links_linkField {f : Field} (hlinks : ∀ t l, links.get? t = some l → l.rdfid = t)
    (hnone : f.slot.links = []) {l : Link} :
    l ∈ (o.linkField links f).1.slot.links ↔ f.about.isUsed = true ∧ l.rdfid ∈ f.slot.targets ∧
      f.about.choose links l.rdfid = some l := by
  rw [(linkField_spec hlinks hnone).2]
  by_cases hused : f.about.isUsed
  · rw [if_pos hused, List.mem_filterMap]
    constructor
    · rintro ⟨t, ht, hl⟩
      obtain rfl := hlinks t l (Descriptor.choose_eq_some.mp hl).1
      exact ⟨hused, ht, hl⟩
    · exact fun ⟨_, ht, hl⟩ => ⟨l.rdfid, ht, hl⟩
  · simp [hused]

/-- A target is linked once. -/
theorem nodup_links_linkField {f : Field} (hlinks : ∀ t l, links.get? t = some l → l.rdfid = t)
    (hnone : f.slot.links = []) : ((o.linkField links f).1.slot.links.map (·.rdfid)).Nodup := by
  have hmap : ∀ ts : List String, (ts.filterMap (f.about.choose links)).map (·.rdfid) =
      ts.filter fun t => (f.about.choose links t).isSome := by
    intro ts
    induction ts with
    | nil => rfl
    | cons t ts ih =>
      cases hc : f.about.choose links t with
      | none => simp [hc, ih]
      | some l => simp [hc, ih, hlinks t l (Descriptor.choose_eq_some.mp hc).1]
  rw [(linkField_spec hlinks hnone).2]
  split
  · rw [hmap]
    exact f.slot.nodup_targets.filter _
  · exact List.nodup_nil

end Object

/-! ## The links of a graph -/

namespace Graph

/-- The index says exactly where the objects are. -/
def IndexExact (g : Graph) : Prop :=
  ∀ t p, g.index.get? t = some p ↔ ∃ o, g.objects[p]? = some o ∧ o.rdfid = t

theorem IndexExact.insertAll {g : Graph} {os : List Object} (h : g.IndexExact)
    (hnodup : ((g.objects ++ os).map (·.rdfid)).Nodup) : (g.insertAll os).IndexExact := by
  induction os generalizing g with
  | nil => exact h
  | cons o os ih =>
    refine ih (g := g.insert o) ?_ (by simpa [insert] using hnodup)
    have hfresh : ∀ a ∈ g.objects, a.rdfid ≠ o.rdfid := by
      intro a ha heq
      rw [List.map_append, List.nodup_append] at hnodup
      exact hnodup.2.2 a.rdfid (List.mem_map_of_mem (f := (·.rdfid)) ha) o.rdfid (by simp) heq
    intro t p
    simp only [insert, SortedMap.get?_insert]
    by_cases ht : o.rdfid = t
    · rw [if_pos ht, Option.some.injEq]
      constructor
      · rintro rfl
        exact ⟨o, by simp, ht⟩
      · rintro ⟨a, ha, hat⟩
        rw [List.getElem?_append] at ha
        split at ha
        · exact absurd (hat.trans ht.symm) (hfresh a (List.mem_of_getElem? ha))
        · have := (List.getElem?_eq_some_iff.mp ha).1
          simp only [List.length_singleton] at this
          omega
    · rw [if_neg ht, h t p]
      constructor
      · rintro ⟨a, ha, hat⟩
        exact ⟨a, by rw [List.getElem?_append_left (List.getElem?_eq_some_iff.mp ha).1, ha], hat⟩
      · rintro ⟨a, ha, hat⟩
        rw [List.getElem?_append] at ha
        split at ha
        · exact ⟨a, ha, hat⟩
        · rw [List.mem_singleton.mp (List.mem_of_getElem? ha)] at hat
          exact absurd hat ht

/-- **Every object of a graph is found at its place.** -/
theorem get?_links {g : Graph} (h : g.IndexExact) {t : String} {l : Link} :
    g.links.get? t = some l ↔
      ∃ p o, g.objects[p]? = some o ∧ o.rdfid = t ∧ l = ⟨p, t, o.cimType⟩ := by
  rw [links, SortedMap.get?_filterMap, Option.bind_eq_some_iff]
  constructor
  · rintro ⟨p, hp, hl⟩
    obtain ⟨o, ho, hrdfid⟩ := (h t p).mp hp
    simp only [object?, ho, Option.map_some, Option.some.injEq] at hl
    exact ⟨p, o, ho, hrdfid, hl.symm⟩
  · rintro ⟨p, o, ho, hrdfid, rfl⟩
    exact ⟨p, (h t p).mpr ⟨o, ho, hrdfid⟩, by simp [object?, ho]⟩

theorem rdfid_of_get?_links {g : Graph} (h : g.IndexExact) (t : String) (l : Link)
    (hl : g.links.get? t = some l) : l.rdfid = t := by
  obtain ⟨p, o, -, -, rfl⟩ := (get?_links h).mp hl
  rfl

/-- An attribute accepts a link to an object of an admitted class. -/
theorem choose_links {g : Graph} (h : g.IndexExact) {d : Descriptor} {t : String} {l : Link} :
    d.choose g.links t = some l ↔ ∃ p o, g.objects[p]? = some o ∧ o.rdfid = t ∧
      l = ⟨p, t, o.cimType⟩ ∧ d.admits o.cimType = true := by
  rw [Descriptor.choose_eq_some, get?_links h]
  constructor
  · rintro ⟨⟨p, o, ho, hrdfid, rfl⟩, hadmits⟩
    exact ⟨p, o, ho, hrdfid, rfl, hadmits⟩
  · rintro ⟨p, o, ho, hrdfid, rfl, hadmits⟩
    exact ⟨⟨p, o, ho, hrdfid, rfl⟩, hadmits⟩

end Graph

theorem Object.linkFields_fst (o : Object) (links : SortedMap String Link) (fs : List Field) :
    (o.linkFields links fs).1 = fs.map fun f => (o.linkField links f).1 := by
  induction fs with
  | nil => rfl
  | cons f fs ih => rw [List.map_cons, ← ih]; rfl

end CimStore

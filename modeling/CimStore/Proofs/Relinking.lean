import CimStore.Proofs.LoadOrder
import CimStore.Proofs.Saving

/-!
# Links from before a visit

Linking adds links and drops none. An attribute may be linked before a graph is: by an earlier
visit, in another graph, or by hand. A target that the graph can serve gets the link to its object;
every other target is reported and keeps the link it had, wherever that leads.

* `Slot.linkTo?`: the link that a slot has for a target;
* `Object.linkTo?_linkField`: the link of a target after the visit of its attribute;
* `Graph.linkAll_links`: what linking makes of the links of every attribute, and when the links are
  those of the graph (`Graph.Valid`);
* `Graph.Grown.valid_linkAll`: in a graph that only grows and is linked now and then they always
  are.
-/

namespace CimStore

/-! ## The link of a target -/

namespace Slot

/-- The link that the slot has for a target. -/
def linkTo? : Slot → String → Option Link
  | reference r, t => r.link?.filter fun l => l.rdfid = t
  | referenceSet s, t => (s.members.get? t).join
  | _, _ => none

variable {s : Slot} {t : String} {l : Link}

theorem mem_links_iff : l ∈ s.links ↔ ∃ t, s.linkTo? t = some l := by
  cases s with
  | string | float | integer | boolean | phaseCode => simp [links, linkTo?]
  | reference r =>
    constructor
    · intro h
      exact ⟨l.rdfid, Option.filter_eq_some_iff.mpr ⟨Option.mem_toList.mp h, by simp⟩⟩
    · rintro ⟨t, h⟩
      exact Option.mem_toList.mpr (Option.filter_eq_some_iff.mp h).1
  | referenceSet s =>
    have hget : ∀ t, linkTo? (.referenceSet s) t = some l ↔ s.members.get? t = some (some l) :=
      fun t => Option.join_eq_some_iff
    simp only [hget, SortedMap.get?_eq_some_iff]
    constructor
    · intro h
      obtain ⟨v, hv, hl⟩ := List.mem_filterMap.mp h
      obtain ⟨e, he, rfl⟩ := List.mem_map.mp hv
      exact ⟨e.1, hl ▸ he⟩
    · rintro ⟨t, ht⟩
      exact List.mem_filterMap.mpr ⟨some l, List.mem_map.mpr ⟨_, ht, rfl⟩, rfl⟩

theorem mem_targets_of_linkTo? (h : s.linkTo? t = some l) : t ∈ s.targets := by
  cases s with
  | string | float | integer | boolean | phaseCode => exact nomatch h
  | reference r =>
    obtain ⟨hlink, hrdfid⟩ := Option.filter_eq_some_iff.mp h
    cases r with
    | empty | unlinked => exact nomatch hlink
    | linked m =>
      obtain rfl := Option.some.inj hlink
      simpa [targets, Reference.target?] using (of_decide_eq_true hrdfid).symm
  | referenceSet s => exact SortedMap.mem_keys.mpr ⟨_, Option.join_eq_some_iff.mp h⟩

end Slot

namespace Object

variable {links : SortedMap String Link} {o : Object} {d : Descriptor} {t : String}

/-- A target that is visited gets the link that is accepted for it, or keeps the one it had. -/
theorem linkTo?_linkTargets (hlinks : ∀ t l, links.get? t = some l → l.rdfid = t) {slot : Slot}
    (ht : t ∈ slot.targets) : (o.linkTargets links d slot slot.targets).1.linkTo? t =
      (d.choose links t).or (slot.linkTo? t) := by
  cases slot with
  | string | float | integer | boolean | phaseCode => exact absurd ht List.not_mem_nil
  | reference r =>
    have htargets : (Slot.reference r).targets = [t] := by
      cases r <;> simp_all [Slot.targets, Reference.target?]
    have hvisit : (o.linkTargets links d (.reference r) [t]).1 =
        (d.choose links t).elim (.reference r) fun l => .reference (.linked l) :=
      linkTarget_fst ..
    rw [htargets, hvisit]
    cases hc : d.choose links t with
    | none => rfl
    | some l =>
      have hrdfid := hlinks t l (Descriptor.choose_eq_some.mp hc).1
      simp [Slot.linkTo?, Reference.link?, hrdfid]
  | referenceSet s =>
    obtain ⟨s', hvisit, hget⟩ := linkTargets_referenceSet (o := o) (d := d) hlinks s s.ids
    show (linkTargets links o d _ s.ids).1.linkTo? t = _
    rw [hvisit]
    show (s'.members.get? t).join = (d.choose links t).or (s.members.get? t).join
    rw [hget, if_pos (show t ∈ s.ids from ht)]
    cases d.choose links t <;> rfl

theorem linkField_of_not_isUsed {f : Field} (h : f.about.isUsed = false) :
    (o.linkField links f).1 = f := by
  rw [linkField, if_neg (by simp [h])]

/-- A field is linked target by target, if it is used. -/
theorem slot_linkField {f : Field} (h : f.about.isUsed = true) : (o.linkField links f).1.slot =
    (o.linkTargets links f.about f.slot f.slot.targets).1 := by
  cases hpointing : f.isPointing with
  | true =>
    rw [linkField_of_isPointing hpointing,
      Field.slot_withSlot ((sort_linkTargets ..).trans f.sort_slot)]
  | false =>
    have hempty : f.slot.targets = [] := by simpa [Field.isPointing_eq, h] using hpointing
    rw [linkField_of_not_isPointing hpointing, hempty]
    rfl

theorem targets_linkField (hlinks : ∀ t l, links.get? t = some l → l.rdfid = t) (f : Field) :
    (o.linkField links f).1.slot.targets = f.slot.targets := by
  cases hused : f.about.isUsed with
  | true =>
    rw [slot_linkField hused]
    exact (linkTargets_frame hlinks fun t ht => ht).2
  | false => rw [linkField_of_not_isUsed hused]

/-- **The link of a target after the visit**: the accepted one, or else the one from before. -/
theorem linkTo?_linkField (hlinks : ∀ t l, links.get? t = some l → l.rdfid = t) {f : Field}
    (hused : f.about.isUsed = true) (ht : t ∈ f.slot.targets) :
    (o.linkField links f).1.slot.linkTo? t = (f.about.choose links t).or (f.slot.linkTo? t) := by
  rw [slot_linkField hused]
  exact linkTo?_linkTargets hlinks ht

end Object

/-! ## The links of a graph -/

namespace Graph

variable {g : Graph} {d : Descriptor} {t : String}

/-- Whether the index gives the target an object of a class that the attribute admits. -/
def serves (g : Graph) (d : Descriptor) (t : String) : Bool :=
  (g.get? t).any fun x => d.admits x.cimType

/-- The objects that the index gives have the rdf:IDs that they were inserted with. -/
def KeepsIds (g : Graph) : Prop := ∀ t x, g.get? t = some x → x.rdfid = t

/-- The link leads to an object with its rdf:ID and class. -/
def Follows (g : Graph) (l : Link) : Prop :=
  ∃ x, g.resolve? l = some x ∧ x.rdfid = l.rdfid ∧ x.cimType = l.cimType

/-- The links of an attribute are those of the graph: linked are the targets that it serves, and
every link leads to an object with its rdf:ID and class. -/
structure Valid (g : Graph) (f : Field) : Prop where
  linked_iff : ∀ t ∈ f.slot.targets,
    (f.slot.linkTo? t).isSome = true ↔ g.serves f.about t = true
  follows : ∀ l ∈ f.slot.links, g.Follows l

theorem serves_linkAll (g : Graph) (d : Descriptor) (t : String) :
    g.linkAll.1.serves d t = g.serves d t := by
  rw [serves, get?_linkAll, serves]
  cases g.get? t <;> rfl

/-- A target that is served has a link to the object that the index gives. -/
theorem exists_link?_of_serves (h : g.serves d t = true) : ∃ i x, g.objects[i]? = some x ∧
    g.get? t = some x ∧ g.link? t = some ⟨i, t, x.cimType⟩ := by
  cases hx : g.get? t with
  | none =>
    rw [serves, hx] at h
    exact nomatch h
  | some x =>
    obtain ⟨i, hi, hobject⟩ := Option.bind_eq_some_iff.mp hx
    exact ⟨i, x, hobject, rfl, by simp [link?, hi, hobject]⟩

theorem serves_of_link? {l : Link} (hl : g.link? t = some l) :
    g.serves d t = d.admits l.cimType := by
  have htype := g.map_cimType_link? t
  rw [hl] at htype
  obtain ⟨x, hx, hcls⟩ := Option.map_eq_some_iff.mp htype.symm
  have hcls : x.cimType = l.cimType := hcls
  simp [serves, hx, hcls]

/-- After linking, the link of a target that is served leads to its object. -/
theorem exists_follows_of_serves (hids : g.KeepsIds) (h : g.serves d t = true) :
    ∃ l, g.link? t = some l ∧ l.rdfid = t ∧ g.linkAll.1.Follows l := by
  obtain ⟨i, x, hi, hx, hl⟩ := exists_link?_of_serves h
  refine ⟨_, hl, rfl, (x.linkAll g.links).1, ?_, hids t x hx, rfl⟩
  show (linkObjects g.links g.objects).1[i]? = _
  rw [linkObjects_fst, List.getElem?_map, hi]
  rfl

/-- An attribute accepts a link to the targets that are served. -/
theorem choose_eq (g : Graph) (d : Descriptor) (t : String) :
    d.choose g.links t = if g.serves d t then g.link? t else none := by
  rw [Descriptor.choose, get?_links_eq]
  cases hl : g.link? t with
  | none => simp
  | some l =>
    rw [serves_of_link? hl]
    by_cases hadmits : d.admits l.cimType <;> simp [hadmits, Option.filter]

/-- A target that is not served is reported. -/
theorem serves_eq_false_iff (g : Graph) (p : Pointer) :
    g.serves p.about p.target = false ↔ ∃ d, p.diagnostic? g.links = some d := by
  rw [diagnostic?_eq, serves]
  cases hx : g.get? p.target with
  | none => simp
  | some x => by_cases hadmits : p.about.admits x.cimType <;> simp [hadmits]

/-- What linking a graph `g` makes of an attribute of an object, which is `f` before and `f'`
afterwards. The graph afterwards is `g'` and the report `r`. -/
structure Relinks (g g' : Graph) (r : LinkReport) (o : Object) (f f' : Field) : Prop where
  about : f'.about = f.about
  targets : f'.slot.targets = f.slot.targets
  unused : f.about.isUsed = false → f' = f
  /-- A target that is served gets the link to its object. Every other one keeps the link that it
  had. -/
  linkTo? : f.about.isUsed = true → ∀ t ∈ f.slot.targets,
    f'.slot.linkTo? t = if g.serves f.about t then g.link? t else f.slot.linkTo? t
  /-- The targets that are not served are reported, linked or not. -/
  reported : f.about.isUsed = true → ∀ t ∈ f.slot.targets, (g.serves f.about t = false ↔
    ∃ d ∈ r.diagnostics, (⟨o, f.about, t⟩ : Pointer).diagnostic? g.links = some d)
  /-- The links of the targets that are served lead to their objects. -/
  follows : g.KeepsIds → ∀ t, g.serves f.about t = true →
    ∃ l, g.link? t = some l ∧ l.rdfid = t ∧ g'.Follows l
  /-- The links are those of the graph if and only if all links from before are to targets that are
  served. -/
  valid_iff : f.about.isUsed = true → g.KeepsIds → (g'.Valid f' ↔
    ∀ t l, f.slot.linkTo? t = some l → g.serves f.about t = true)

/-- Where a target gets the link to its object if it is served and else keeps its own, the links are
those of the graph if no other target was linked before. -/
theorem valid_linkAll_iff (hids : g.KeepsIds) {f f' : Field} (habout : f'.about = f.about)
    (htargets : f'.slot.targets = f.slot.targets) (hlinkTo : ∀ t ∈ f.slot.targets,
      f'.slot.linkTo? t = if g.serves f.about t then g.link? t else f.slot.linkTo? t) :
    g.linkAll.1.Valid f' ↔
      ∀ t l, f.slot.linkTo? t = some l → g.serves f.about t = true := by
  constructor
  · -- A link from before to a target that is not served is still there.
    intro hvalid t l hl
    have ht : t ∈ f.slot.targets := Slot.mem_targets_of_linkTo? hl
    have hiff := hvalid.linked_iff t (htargets ▸ ht)
    rw [hlinkTo t ht, habout, serves_linkAll] at hiff
    cases hserves : g.serves f.about t with
    | true => rfl
    | false => simp [hserves, hl] at hiff
  · intro hserved
    constructor
    · intro t ht
      rw [htargets] at ht
      rw [hlinkTo t ht, habout, serves_linkAll]
      cases hserves : g.serves f.about t with
      | true =>
        obtain ⟨i, x, -, -, hl⟩ := exists_link?_of_serves hserves
        simp [hl]
      | false =>
        have hnone : f.slot.linkTo? t = none := by
          by_contra hsome
          obtain ⟨l, hl⟩ := Option.ne_none_iff_exists'.mp hsome
          rw [hserved t l hl] at hserves
          exact nomatch hserves
        simp [hnone]
    · intro l hl
      obtain ⟨t, hl⟩ := Slot.mem_links_iff.mp hl
      rw [hlinkTo t (htargets ▸ Slot.mem_targets_of_linkTo? hl)] at hl
      have hserves : g.serves f.about t = true := by
        by_contra hnot
        rw [if_neg hnot] at hl
        exact hnot (hserved t l hl)
      rw [if_pos hserves] at hl
      obtain ⟨m, hm, -, hfollows⟩ := exists_follows_of_serves hids hserves
      obtain rfl : l = m := Option.some.inj (hl.symm.trans hm)
      exact hfollows

/-- **What a visit makes of an attribute.** -/
theorem relinks_linkField {o : Object} (ho : o ∈ g.objects) {f : Field} (hf : f ∈ o.fields) :
    g.Relinks g.linkAll.1 g.linkAll.2 o f (o.linkField g.links f).1 := by
  have hlinks : ∀ t l, g.links.get? t = some l → l.rdfid = t := fun t l hl =>
    rdfid_of_link? ((g.get?_links_eq t).symm.trans hl)
  have hlinkTo : f.about.isUsed = true → ∀ t ∈ f.slot.targets,
      (o.linkField g.links f).1.slot.linkTo? t =
        if g.serves f.about t then g.link? t else f.slot.linkTo? t := by
    intro hused t ht
    rw [Object.linkTo?_linkField hlinks hused ht, choose_eq]
    cases hserves : g.serves f.about t with
    | false => simp
    | true =>
      obtain ⟨i, x, -, -, hl⟩ := exists_link?_of_serves hserves
      simp [hl]
  refine ⟨o.about_linkField g.links f, o.targets_linkField hlinks f,
    Object.linkField_of_not_isUsed, hlinkTo, ?_, fun hids t => exists_follows_of_serves hids,
    fun hused hids => valid_linkAll_iff hids (o.about_linkField g.links f)
      (o.targets_linkField hlinks f) (hlinkTo hused)⟩
  intro hused t ht
  have hpointer : ⟨o, f.about, t⟩ ∈ g.pointers := by
    refine List.mem_flatMap.mpr ⟨o, ho, List.mem_flatMap.mpr ⟨f, hf, ?_⟩⟩
    rw [Field.pointers, if_pos hused]
    exact List.mem_map_of_mem ht
  have hiff := g.serves_eq_false_iff ⟨o, f.about, t⟩
  rw [linkAll_snd]
  constructor
  · intro hserves
    obtain ⟨d, hd⟩ := hiff.mp hserves
    exact ⟨d, List.mem_filterMap.mpr ⟨_, hpointer, hd⟩, hd⟩
  · rintro ⟨d, -, hd⟩
    exact hiff.mpr ⟨d, hd⟩

/-- **What linking makes of the links of a graph**, whatever its objects were linked to before. In
every used attribute the targets that the index gives an object of an admitted class for get the
link to that object; the others are reported and keep the link they had. So the links are those of
the graph exactly if all links from before are to targets that it serves. Where the labels of the
classes are distinct, the same comes of it if each attribute is looked up by its label. -/
theorem linkAll_links (g : Graph) :
    List.Forall₂ (fun o o' => List.Forall₂ (g.Relinks g.linkAll.1 g.linkAll.2 o) o.fields o'.fields)
      g.objects g.linkAll.1.objects ∧
    ((∀ o ∈ g.objects, o.cls.Labelled) → g.visitAll = .ok g.linkAll) := by
  refine ⟨?_, visitAll_eq⟩
  show List.Forall₂ _ g.objects (linkObjects g.links g.objects).1
  rw [linkObjects_fst, List.forall₂_map_right_iff, List.forall₂_same]
  intro o ho
  show List.Forall₂ _ o.fields (o.linkFields g.links o.fields).1
  rw [Object.linkFields_fst, List.forall₂_map_right_iff, List.forall₂_same]
  exact fun f hf => relinks_linkField ho hf

/-- A terminal that was linked by hand to equipment that is not in the graph. Where the link leads
there is another busbar. -/
def leftover : Graph :=
  let terminal := SmallGrid.object .terminal "_t1" [("ConductingEquipment", "_gone")]
  let linked := terminal.link "ConductingEquipment" ⟨1, "_gone", "BusbarSection"⟩
  (({} : Graph).insert (linked.toOption.getD terminal)).insert
    (SmallGrid.object .busbarSection "_b1" [])

/-- The equipment is reported as not in the graph, and the terminal is still linked to it: to the
other busbar. -/
theorem linkAll_links_leftover : leftover.index.contains "_gone" = false ∧
    leftover.linkAll.2.dangling.map (·.target) = ["_gone"] ∧
    ∃ o ∈ leftover.linkAll.1.objects, ∃ f ∈ o.fields, f.about.isUsed = true ∧
      f.slot.linkTo? "_gone" = some ⟨1, "_gone", "BusbarSection"⟩ ∧
      (leftover.linkAll.1.resolve? ⟨1, "_gone", "BusbarSection"⟩).map (·.rdfid) = some "_b1" ∧
      ¬leftover.linkAll.1.Valid f := by
  have hindex : leftover.index.contains "_gone" = false := by decide +kernel
  have hreport : leftover.linkAll.2.dangling.map (·.target) = ["_gone"] := by decide +kernel
  have hresolve : (leftover.linkAll.1.resolve? ⟨1, "_gone", "BusbarSection"⟩).map (·.rdfid) =
      some "_b1" := by decide +kernel
  have hget : leftover.get? "_gone" = none := by decide +kernel
  have hlinked : ∃ o ∈ leftover.objects, ∃ f ∈ o.fields, f.about.isUsed = true ∧
      f.slot.linkTo? "_gone" = some ⟨1, "_gone", "BusbarSection"⟩ := by decide +kernel
  obtain ⟨o, ho, f, hf, hused, hl⟩ := hlinked
  obtain ⟨o', ho', hfields⟩ := exists_of_forall₂ (linkAll_links leftover).1.flip ho
  obtain ⟨f', hf', hrelinks⟩ := exists_of_forall₂ hfields.flip hf
  have hserves : leftover.serves f.about "_gone" = false := by rw [serves, hget]; rfl
  have hkept := hrelinks.linkTo? hused "_gone" (Slot.mem_targets_of_linkTo? hl)
  rw [hserves, if_neg Bool.false_ne_true, hl] at hkept
  refine ⟨hindex, hreport, o', ho', f', hf', by rwa [hrelinks.about], hkept, hresolve, ?_⟩
  intro hvalid
  obtain ⟨x, hx, hrdfid, -⟩ := hvalid.follows _ (Slot.mem_links_iff.mpr ⟨_, hkept⟩)
  rw [hx] at hresolve
  exact absurd (hrdfid.symm.trans (Option.some.inj hresolve)) (by decide)

end Graph

/-! ## Graphs that only grow -/

namespace Slot

variable {s s' : Slot} {t text : String} {l m : Link}

/-- Setting a reference drops links and makes none. -/
theorem linkTo?_of_write? (h : s.write? text = some s') (hl : s'.linkTo? t = some l) :
    s.linkTo? t = some l := by
  cases s with
  | string | boolean =>
    obtain rfl := Option.some.inj h
    cases hl
  | float | integer | phaseCode =>
    obtain ⟨v, -, rfl⟩ := Option.map_eq_some_iff.mp h
    cases hl
  | reference r =>
    obtain rfl := Option.some.inj h
    simp only [Reference.setId] at hl
    split at hl
    · cases hl
    · split at hl
      · exact hl
      · cases hl
  | referenceSet s =>
    obtain rfl := Option.some.inj h
    simp only [ReferenceSet.addId] at hl
    split at hl
    · exact hl
    · simp only [linkTo?, SortedMap.get?_insert] at hl
      split at hl
      · cases hl
      · exact hl

/-- Linking a reference makes one link. -/
theorem linkTo?_of_link? (h : s.link? m = some s') (hl : s'.linkTo? t = some l) :
    t = m.rdfid ∨ s.linkTo? t = some l := by
  cases s with
  | string | float | integer | boolean | phaseCode => exact nomatch h
  | reference r =>
    obtain rfl := Option.some.inj h
    have hfilter : (some m).filter (fun l => l.rdfid = t) = some l := hl
    obtain ⟨hm, hrdfid⟩ := Option.filter_eq_some_iff.mp hfilter
    obtain rfl : m = l := Option.some.inj hm
    exact .inl (of_decide_eq_true hrdfid).symm
  | referenceSet s =>
    obtain rfl := Option.some.inj h
    simp only [linkTo?, ReferenceSet.link, SortedMap.get?_insert] at hl
    split at hl
    · rename_i hrdfid
      exact .inl hrdfid.symm
    · exact .inr hl

end Slot

namespace Graph

variable {g g' : Graph} {d : Descriptor} {t : String}

/-- A graph that only grows: objects that have no links are inserted under new rdf:IDs, attributes
are set, or linked to an object of the graph, and the graph is linked, in any order and any number
of times. -/
inductive Grown : Graph → Prop
  | new (model : Option Int) : Grown { model }
  | insert {g : Graph} {o : Object} (h : Grown g) (hnew : g.index.contains o.rdfid = false)
    (hnone : ∀ f ∈ o.fields, f.slot.links = []) : Grown (g.insert o)
  | write {g : Graph} {i : Nat} {o o' : Object} {name text : String} (h : Grown g)
    (ho : g.object? i = some o) (hset : o.set name text = .ok o') : Grown (g.set i o')
  | point {g : Graph} {i : Nat} {o o' : Object} {name : String} {l : Link} (h : Grown g)
    (ho : g.object? i = some o) (hl : g.link? l.rdfid = some l) (hlink : o.link name l = .ok o') :
    Grown (g.set i o')
  | link {g : Graph} (h : Grown g) : Grown g.linkAll.1
  | keep {g : Graph} (report : LinkReport) (h : Grown g) : Grown { g with report }

/-- Every link is to a target that the graph serves. -/
def Settled (g : Graph) : Prop := ∀ o ∈ g.objects, ∀ f ∈ o.fields, ∀ t l,
  f.slot.linkTo? t = some l → g.serves f.about t = true

/-- What is found depends on the index and on the objects at their places. -/
theorem map_get?_congr {α : Type} {φ : Object → α} (hindex : g'.index = g.index)
    (hobjects : g'.objects.map φ = g.objects.map φ) (t : String) :
    (g'.get? t).map φ = (g.get? t).map φ := by
  have hobject : ∀ i, (g'.object? i).map φ = (g.object? i).map φ := by
    intro i
    rw [object?, object?, ← List.getElem?_map, ← List.getElem?_map, hobjects]
  rw [get?, get?, hindex, Option.map_bind, Option.map_bind]
  exact congrArg _ (funext hobject)

theorem serves_congr (hindex : g'.index = g.index)
    (htypes : g'.objects.map Object.cimType = g.objects.map Object.cimType) :
    g'.serves d t = g.serves d t := by
  have hany : ∀ g : Graph, g.serves d t = ((g.get? t).map Object.cimType).any d.admits := by
    intro g
    rw [serves, Option.any_map]
  rw [hany, hany, map_get?_congr hindex htypes]

theorem KeepsIds.congr (h : g.KeepsIds) (hindex : g'.index = g.index)
    (hrdfids : g'.objects.map Object.rdfid = g.objects.map Object.rdfid) : g'.KeepsIds := by
  intro t x hx
  have hmap := map_get?_congr hindex hrdfids t
  rw [hx] at hmap
  obtain ⟨y, hy, hrdfid⟩ := Option.map_eq_some_iff.mp hmap.symm
  exact hrdfid.symm.trans (h t y hy)

/-- An object that is changed is found as before by what the change keeps. -/
theorem map_set {α : Type} {φ : Object → α} {i : Nat} {o o' : Object} (ho : g.object? i = some o)
    (hφ : φ o' = φ o) : (g.set i o').objects.map φ = g.objects.map φ := by
  obtain ⟨hlt, hi⟩ := List.getElem?_eq_some_iff.mp ho
  apply List.ext_getElem?
  intro j
  rw [set, List.map_set, hφ, List.getElem?_set]
  by_cases hij : i = j
  · subst hij
    simp [hlt, hi]
  · rw [if_neg hij]

theorem Built.get?_insert (h : g.Built) (o : Object) (t : String) :
    (g.insert o).get? t = if o.rdfid = t then some o else g.get? t := by
  simp only [Graph.get?, Graph.insert, SortedMap.get?_insert]
  by_cases ht : o.rdfid = t
  · simp [ht, object?]
  · simp only [if_neg ht]
    cases hp : g.index.get? t with
    | none => rfl
    | some p => exact List.getElem?_append_left (h.lt_length hp)

theorem Grown.built (h : g.Grown) : g.Built := by
  induction h with
  | new model => exact .new model
  | insert _ _ _ ih => exact .insert _ ih
  | write _ _ _ ih | point _ _ _ _ ih => exact .change _ _ ih
  | link _ ih => exact .link ih
  | keep report _ ih => exact .keep report ih

/-- A change of an object that makes no link to a target that is not served. -/
theorem Settled.set {i : Nat} {o o' : Object} (h : g.Settled) (ho : g.object? i = some o)
    (hcls : o'.cls = o.cls) (hserved : ∀ f ∈ o'.fields, ∀ t l, f.slot.linkTo? t = some l →
      g.serves f.about t = true) : (g.set i o').Settled := by
  have htype : o'.cimType = o.cimType := congrArg CimClass.name hcls
  intro a ha f hf t l hl
  have hserves : (g.set i o').serves f.about t = g.serves f.about t :=
    serves_congr rfl (map_set ho htype)
  rw [hserves]
  rcases List.mem_or_eq_of_mem_set ha with ha | rfl
  · exact h a ha f hf t l hl
  · exact hserved f hf t l hl

theorem Settled.insert {o : Object} (h : g.Settled) (hg : g.Built)
    (hnew : g.index.contains o.rdfid = false) (hnone : ∀ f ∈ o.fields, f.slot.links = []) :
    (g.insert o).Settled := by
  intro a ha f hf t l hl
  rcases List.mem_append.mp ha with ha | ha
  · have hserves := h a ha f hf t l hl
    have hne : o.rdfid ≠ t := by
      rintro rfl
      rw [serves, hg.get?_eq_none_iff.mpr hnew] at hserves
      exact nomatch hserves
    rw [serves, hg.get?_insert, if_neg hne]
    exact hserves
  · obtain rfl := List.mem_singleton.mp ha
    have hmem : l ∈ f.slot.links := Slot.mem_links_iff.mpr ⟨t, hl⟩
    rw [hnone f hf] at hmem
    exact absurd hmem List.not_mem_nil

theorem KeepsIds.insert (h : g.KeepsIds) (hg : g.Built) (o : Object) : (g.insert o).KeepsIds := by
  intro t x hx
  rw [hg.get?_insert] at hx
  split at hx
  · rename_i ht
    exact Option.some.inj hx ▸ ht
  · exact h t x hx

/-- Every attribute of a linked graph was visited. -/
theorem exists_relinks {o' : Object} (ho' : o' ∈ g.linkAll.1.objects) {f' : Field}
    (hf' : f' ∈ o'.fields) : ∃ o ∈ g.objects, ∃ f ∈ o.fields,
      g.Relinks g.linkAll.1 g.linkAll.2 o f f' := by
  have ho' : o' ∈ (linkObjects g.links g.objects).1 := ho'
  rw [linkObjects_fst] at ho'
  obtain ⟨o, ho, rfl⟩ := List.mem_map.mp ho'
  have hf' : f' ∈ (o.linkFields g.links o.fields).1 := hf'
  rw [Object.linkFields_fst] at hf'
  obtain ⟨f, hf, rfl⟩ := List.mem_map.mp hf'
  exact ⟨o, ho, f, hf, relinks_linkField ho hf⟩

/-- A link that a visit leaves is to a target that is served, if the links from before are. -/
theorem Settled.linkAll (h : g.Settled) : g.linkAll.1.Settled := by
  intro o' ho' f' hf' t l hl
  obtain ⟨o, ho, f, hf, hvisit⟩ := exists_relinks ho' hf'
  rw [serves_linkAll, hvisit.about]
  cases hused : f.about.isUsed with
  | false =>
    rw [hvisit.unused hused] at hl
    exact h o ho f hf t l hl
  | true =>
    rw [hvisit.linkTo? hused t (hvisit.targets ▸ Slot.mem_targets_of_linkTo? hl)] at hl
    by_contra hnot
    rw [if_neg hnot] at hl
    exact hnot (h o ho f hf t l hl)

/-- **In a graph that only grows every link is to a target that it serves**, and its objects are
found under the rdf:IDs that they were inserted with. -/
theorem Grown.settled (h : g.Grown) : g.KeepsIds ∧ g.Settled := by
  induction h with
  | new model => exact ⟨fun t x hx => (nomatch hx), fun o ho => absurd ho List.not_mem_nil⟩
  | insert h hnew hnone ih => exact ⟨ih.1.insert h.built _, ih.2.insert h.built hnew hnone⟩
  | @write g i o o' name text _ ho hset ih =>
    obtain ⟨hcls, -, hrdfid, hfields⟩ := Object.exists_field_of_change
      (fun f => f.about.write text f.slot) (fun f s => Descriptor.sort_of_write) hset
    have hids : (g.set i o').KeepsIds := ih.1.congr rfl (map_set ho hrdfid)
    refine ⟨hids, ih.2.set ho hcls ?_⟩
    intro f' hf' t l hl
    have ho : o ∈ g.objects := List.mem_of_getElem? ho
    rcases hfields f' hf' with hf' | ⟨f, hf, habout, hwrite⟩
    · exact ih.2 o ho f' hf' t l hl
    · rw [habout]
      exact ih.2 o ho f hf t l (Slot.linkTo?_of_write? (Descriptor.write_eq_ok.mp hwrite) hl)
  | @point g i o o' name m _ ho hm hlink ih =>
    obtain ⟨hcls, -, hrdfid, hfields⟩ := Object.exists_field_of_change
      (fun f => f.about.link m f.slot) (fun f s => Descriptor.sort_of_link) hlink
    have hids : (g.set i o').KeepsIds := ih.1.congr rfl (map_set ho hrdfid)
    refine ⟨hids, ih.2.set ho hcls ?_⟩
    intro f' hf' t l hl
    have ho : o ∈ g.objects := List.mem_of_getElem? ho
    rcases hfields f' hf' with hf' | ⟨f, hf, habout, hlinked⟩
    · exact ih.2 o ho f' hf' t l hl
    · rw [habout]
      obtain ⟨hadmits, hslot⟩ := Descriptor.link_eq_ok.mp hlinked
      rcases Slot.linkTo?_of_link? hslot hl with rfl | hl
      · exact (serves_of_link? hm).trans hadmits
      · exact ih.2 o ho f hf t l hl
  | link _ ih =>
    refine ⟨ih.1.congr rfl ?_, ih.2.linkAll⟩
    exact Graph.map_linkAll _ fun _ _ rdfid _ => rdfid
  | keep report _ ih => exact ih

/-- **In a graph that only grows the links are valid after every visit**: linked are exactly the
targets that the graph serves, and every link leads to an object with its rdf:ID and class. -/
theorem Grown.valid_linkAll (h : g.Grown) {o : Object} (ho : o ∈ g.linkAll.1.objects) {f : Field}
    (hf : f ∈ o.fields) (hused : f.about.isUsed = true) : g.linkAll.1.Valid f := by
  obtain ⟨hids, hsettled⟩ := h.settled
  obtain ⟨a, ha, b, hb, hvisit⟩ := exists_relinks ho hf
  rw [hvisit.about] at hused
  exact (hvisit.valid_iff hused hids).mpr (hsettled a ha b hb)

end Graph

end CimStore

import CimStore.Proofs.Relinking

/-!
# Linking a graph a second time

A visit writes the target of a reference together with its link, and the next visit reads it again.
The link carries the rdf:ID under which it was looked up, also when the object it leads to has
another one by now, so the next visit looks up the same targets, gets the same links, and writes
what is already there:

* `Object.linkTargets_again`: the targets of one attribute;
* `Object.linkField_again`, `Object.linkAll_again`: an attribute and an object, with their reports;
* `Graph.links_linkAll`: the table of links is the same for the second visit;
* `Graph.linkAll_linkAll`: a whole graph.
-/

namespace CimStore

namespace Object

variable {links : SortedMap String Link} {o x : Object} {d : Descriptor} {slot : Slot}

/-! ## What a visit sees of an object -/

/-- Only class and rdf:ID of an object stand in the report of its visit. -/
theorem linkTarget_congr (hcls : x.cls = o.cls) (hrdfid : x.rdfid = o.rdfid) :
    x.linkTarget links = o.linkTarget links := by
  unfold linkTarget cimType
  rw [hcls, hrdfid]

theorem linkTargets_congr (hcls : x.cls = o.cls) (hrdfid : x.rdfid = o.rdfid)
    (targets : List String) :
    x.linkTargets links d slot targets = o.linkTargets links d slot targets := by
  induction targets generalizing slot with
  | nil => rfl
  | cons t ts ih =>
    unfold linkTargets
    simp only [linkTarget_congr hcls hrdfid, ih]

theorem linkField_congr (hcls : x.cls = o.cls) (hrdfid : x.rdfid = o.rdfid) (f : Field) :
    x.linkField links f = o.linkField links f := by
  unfold linkField
  rw [linkTargets_congr hcls hrdfid]

theorem linkFields_congr (hcls : x.cls = o.cls) (hrdfid : x.rdfid = o.rdfid) (fs : List Field) :
    x.linkFields links fs = o.linkFields links fs := by
  induction fs with
  | nil => rfl
  | cons f fs ih =>
    unfold linkFields
    simp only [linkField_congr hcls hrdfid, ih]

/-! ## A second visit -/

/-- **The links of the targets are made again as they are.** -/
theorem linkTargets_again (hlinks : ∀ t l, links.get? t = some l → l.rdfid = t) (slot : Slot) :
    (o.linkTargets links d (o.linkTargets links d slot slot.targets).1 slot.targets).1 =
      (o.linkTargets links d slot slot.targets).1 := by
  cases slot with
  | string | float | integer | boolean | phaseCode => rfl
  | reference r =>
    cases htarget : r.target? with
    | none => simp [Slot.targets, htarget, linkTargets]
    | some t =>
      -- One target: its link takes the place of the reference, whatever that was.
      have hvisit : ∀ q : Reference, (o.linkTargets links d (.reference q) [t]).1 =
          (d.choose links t).elim (.reference q) fun l => .reference (.linked l) :=
        fun q => linkTarget_fst ..
      simp only [Slot.targets, htarget, Option.toList_some, hvisit]
      cases hc : d.choose links t with
      | none => simp [hvisit, hc]
      | some l => simp [hvisit, hc]
  | referenceSet s =>
    obtain ⟨s₁, hfirst, hget₁⟩ := linkTargets_referenceSet (o := o) (d := d) hlinks s s.ids
    obtain ⟨s₂, hsecond, hget₂⟩ := linkTargets_referenceSet (o := o) (d := d) hlinks s₁ s.ids
    have hmembers : s₂.members = s₁.members := by
      refine SortedMap.ext_get? fun t => ?_
      rw [hget₂, hget₁]
      by_cases ht : t ∈ s.ids
      · simp only [if_pos ht]
        cases d.choose links t <;> rfl
      · simp only [if_neg ht]
    show (linkTargets links o d (linkTargets links o d _ s.ids).1 s.ids).1 =
      (linkTargets links o d _ s.ids).1
    rw [hfirst, hsecond]
    exact congrArg (fun m => Slot.referenceSet ⟨m⟩) hmembers

/-- **A visited attribute is visited again**: nothing changes and the same is reported. -/
theorem linkField_again (hlinks : ∀ t l, links.get? t = some l → l.rdfid = t) (f : Field) :
    o.linkField links (o.linkField links f).1 = o.linkField links f := by
  cases hpointing : f.isPointing with
  | false =>
    have hfirst : o.linkField links f = (f, {}) := linkField_of_not_isPointing hpointing
    rw [hfirst, hfirst]
  | true =>
    have hparts : f.about.isUsed = true ∧ f.slot.targets ≠ [] := by
      simpa [Field.isPointing_eq] using hpointing
    have habout := o.about_linkField links f
    have htargets := o.targets_linkField hlinks f
    have hslot : (o.linkField links f).1.slot =
        (o.linkTargets links f.about f.slot f.slot.targets).1 := slot_linkField hparts.1
    have hpointing' : (o.linkField links f).1.isPointing = true := by
      rw [Field.isPointing_eq, habout, htargets, ← Field.isPointing_eq, hpointing]
    have hsame : (o.linkTargets links f.about (o.linkField links f).1.slot f.slot.targets).1 =
        (o.linkField links f).1.slot := by
      rw [hslot]
      exact linkTargets_again hlinks f.slot
    have hkind : f.slot.sort.kind.isReference = true :=
      (Slot.targets_ne_nil_iff.mp hparts.2).1
    have hkind' : (o.linkField links f).1.slot.sort.kind.isReference = true :=
      (Slot.targets_ne_nil_iff.mp (htargets ▸ hparts.2)).1
    have hreport : (o.linkTargets links f.about (o.linkField links f).1.slot f.slot.targets).2 =
        (o.linkTargets links f.about f.slot f.slot.targets).2 := by
      rw [linkTargets_snd hkind', linkTargets_snd hkind]
    rw [linkField_of_isPointing hpointing', habout, htargets, hsame, Field.withSlot_self, hreport,
      linkField_of_isPointing hpointing]

theorem linkFields_again (hlinks : ∀ t l, links.get? t = some l → l.rdfid = t)
    (fs : List Field) : o.linkFields links (o.linkFields links fs).1 = o.linkFields links fs := by
  induction fs with
  | nil => rfl
  | cons f fs ih =>
    show o.linkFields links ((o.linkField links f).1 :: (o.linkFields links fs).1) = _
    simp only [linkFields, linkField_again hlinks, ih]

/-- **A visited object is visited again.** -/
theorem linkAll_again (hlinks : ∀ t l, links.get? t = some l → l.rdfid = t) (o : Object) :
    (o.linkAll links).1.linkAll links = o.linkAll links := by
  have hfields : (o.linkAll links).1.linkFields links (o.linkAll links).1.fields =
      o.linkFields links o.fields := by
    rw [linkFields_congr (x := (o.linkAll links).1) (o := o) rfl rfl]
    exact linkFields_again hlinks o.fields
  refine Prod.ext (ext_fields rfl rfl rfl rfl ?_) ?_
  · exact congrArg Prod.fst hfields
  · show { objects := 1 } ++ ((o.linkAll links).1.linkFields links _).2 = _
    rw [hfields]
    rfl

end Object

theorem linkObjects_again {links : SortedMap String Link}
    (hlinks : ∀ t l, links.get? t = some l → l.rdfid = t) (os : List Object) :
    linkObjects links (linkObjects links os).1 = linkObjects links os := by
  induction os with
  | nil => rfl
  | cons o os ih =>
    show linkObjects links ((o.linkAll links).1 :: (linkObjects links os).1) = _
    simp only [linkObjects, Object.linkAll_again hlinks, ih]

namespace Graph

/-- A visit moves no object and changes no class, so links are looked up in the same table. -/
theorem links_linkAll (g : Graph) : g.linkAll.1.links = g.links := by
  refine SortedMap.ext_get? fun t => ?_
  rw [get?_links_eq, get?_links_eq]
  show (g.index.get? t).bind _ = (g.index.get? t).bind _
  refine congrArg _ (funext fun p => ?_)
  show (g.linkAll.1.object? p).bind _ = (g.object? p).bind _
  rw [object?_linkAll]
  cases g.object? p <;> rfl

/-- **Linking a second time changes nothing and reports the same**, whatever the graph went through
before: the whole graph is as the first visit left it, and the second report is the first. The
service reports the same diagnostics once more, in the same order. Where the labels of a class are
distinct, also a visit of its attributes by their labels leaves every object as it is. -/
theorem linkAll_linkAll (g : Graph) :
    g.linkAll.1.linkAll = g.linkAll ∧
    (∀ s : Service, Service.link g.linkAll.1 (Service.link g s).2 =
      (g.linkAll, { s with diagnostics :=
        s.diagnostics ++ g.linkAll.2.diagnostics ++ g.linkAll.2.diagnostics })) ∧
    ∀ o ∈ g.linkAll.1.objects, o.cls.Labelled →
      ∃ report, o.visitAll g.linkAll.1.links o.cls.labels = .ok (o, report) := by
  have hlinks : ∀ t l, g.links.get? t = some l → l.rdfid = t := fun t l hl =>
    rdfid_of_link? ((g.get?_links_eq t).symm.trans hl)
  have hagain : g.linkAll.1.linkAll = g.linkAll := by
    show (({ g.linkAll.1 with objects := (linkObjects g.linkAll.1.links g.linkAll.1.objects).1 } :
      Graph), (linkObjects g.linkAll.1.links g.linkAll.1.objects).2) = _
    rw [links_linkAll]
    show (({ g with objects := (linkObjects g.links (linkObjects g.links g.objects).1).1 } :
      Graph), (linkObjects g.links (linkObjects g.links g.objects).1).2) = _
    rw [linkObjects_again hlinks]
    rfl
  refine ⟨hagain, fun s => ?_, fun o ho hlabels => ?_⟩
  · rw [Service.link_eq, Service.link_eq, hagain]
  · obtain ⟨report, hvisit, -⟩ := @Object.visitAll_eq g.linkAll.1.links o hlabels
    have ho : o ∈ (linkObjects g.links g.objects).1 := ho
    rw [linkObjects_fst] at ho
    obtain ⟨a, -, rfl⟩ := List.mem_map.mp ho
    refine ⟨report, ?_⟩
    rw [hvisit, links_linkAll, Object.linkAll_again hlinks]

/-- The small grid, of which the node was given another rdf:ID after it was inserted. -/
def renamed : Graph :=
  (({ model := some 1 } : Graph).insertAll [SmallGrid.island, SmallGrid.line,
    SmallGrid.node "_n1"]).set 2 (SmallGrid.node "_n9")

/-- The island is linked to the node under the old rdf:ID. The second visit finds it there again. -/
theorem linkAll_linkAll_renamed :
    (renamed.linkAll.1.resolve? ⟨2, "_n1", "TopologicalNode"⟩).map (·.rdfid) = some "_n9" ∧
    (∃ o ∈ renamed.linkAll.1.objects, o.cls.Labelled ∧
      o.links "AngleRefTopologicalNode" = .ok [⟨2, "_n1", "TopologicalNode"⟩] ∧
      ∃ report, o.visitAll renamed.linkAll.1.links o.cls.labels = .ok (o, report)) ∧
    renamed.linkAll.1.linkAll = renamed.linkAll := by
  obtain ⟨hagain, -, hvisit⟩ := linkAll_linkAll renamed
  have hnode : (renamed.linkAll.1.resolve? ⟨2, "_n1", "TopologicalNode"⟩).map (·.rdfid) =
      some "_n9" := by decide +kernel
  have hisland : ∃ o ∈ renamed.linkAll.1.objects, o.cls.Labelled ∧
      o.links "AngleRefTopologicalNode" = .ok [⟨2, "_n1", "TopologicalNode"⟩] := by
    decide +kernel
  obtain ⟨o, ho, hlabels, hlinked⟩ := hisland
  exact ⟨hnode, ⟨o, ho, hlabels, hlinked, hvisit o ho hlabels⟩, hagain⟩

end Graph

end CimStore

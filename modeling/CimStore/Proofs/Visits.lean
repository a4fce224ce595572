import CimStore.Proofs.Attributes
import CimStore.Proofs.Linking

/-!
# What a visit reports, and what it leaves alone

Linking visits each target of each used reference once:

* `Object.pointers`: the targets of an object that are visited, in order;
* `Object.linkFields_snd`: what the visit of the fields of an object reports;
* `Object.linkField_frame`: the text of an attribute stays as it is, also if it had links before;
* `Object.visitAll_eq`, `Graph.visitAll_eq`: attributes that are looked up by their labels, again
  for every target, are visited as the fields are, and give no failure of their own.
-/

namespace CimStore

/-! ## Slots that are linked -/

namespace SortedMap

/-- A key that is bound again adds no key. -/
theorem keys_insert_of_contains {m : SortedMap String (Option Link)} {k : String} {v : Option Link}
    (h : m.contains k = true) : (m.insert k v).keys = m.keys := by
  refine keys_congr fun t => Bool.eq_iff_iff.mpr ?_
  rw [contains_insert]
  exact ⟨fun ht => ht.elim (fun hk => hk ▸ h) id, .inr⟩

end SortedMap

namespace Slot

/-- The text of a reference is that of its targets. -/
theorem read_congr {s t : Slot} (hkind : s.sort.kind.isReference = true) (hsort : t.sort = s.sort)
    (htargets : t.targets = s.targets) : t.read = s.read := by
  cases s with
  | string | float | integer | boolean | phaseCode => cases hkind
  | reference r =>
    cases t with
    | string | float | integer | boolean | phaseCode | referenceSet => cases hsort
    | reference q =>
      cases r <;> cases q <;> simp_all [targets, read, Reference.target?]
  | referenceSet s =>
    cases t with
    | string | float | integer | boolean | phaseCode | reference => cases hsort
    | referenceSet q =>
      have hids : q.ids = s.ids := htargets
      have hempty : ∀ s : ReferenceSet, s.isEmpty = s.ids.isEmpty := fun s => by
        simp [ReferenceSet.isEmpty, SortedMap.isEmpty, ReferenceSet.ids, SortedMap.keys]
      simp [read, hempty, hids]

/-- The text of a reference is one target, that of a set its targets. -/
theorem read_reference {s : Slot} (hkind : s.sort.kind.isReference = true)
    (hread : s.read.isSome = true) :
    (∃ t, s.sort.kind = .reference ∧ s.read = some (.text t) ∧ s.targets = [t]) ∨
      s.sort.kind = .referenceSet ∧ s.read = some (.texts s.targets) := by
  cases s with
  | string | float | integer | boolean | phaseCode => exact nomatch hkind
  | reference r =>
    cases r with
    | empty => exact nomatch hread
    | unlinked t => exact .inl ⟨t, rfl, rfl, rfl⟩
    | linked l => exact .inl ⟨l.rdfid, rfl, rfl, rfl⟩
  | referenceSet s =>
    by_cases hempty : s.isEmpty
    · simp [read, hempty] at hread
    · exact .inr ⟨rfl, by simp [read, targets, hempty]⟩

/-- A slot has targets if and only if it is a reference with a value. -/
theorem targets_ne_nil_iff {s : Slot} :
    s.targets ≠ [] ↔ s.sort.kind.isReference = true ∧ s.read.isSome = true := by
  cases s with
  | string | float | integer | boolean | phaseCode =>
    simp [targets, sort, AttributeSort.kind, AttributeKind.isReference]
  | reference r =>
    cases r <;> simp [targets, sort, read, AttributeSort.kind, AttributeKind.isReference,
      Reference.target?]
  | referenceSet s =>
    have hids : s.ids = [] ↔ s.isEmpty = true := by
      simp [ReferenceSet.ids, SortedMap.keys, ReferenceSet.isEmpty, SortedMap.isEmpty]
    by_cases hempty : s.isEmpty
    · simp [targets, sort, read, hids.mpr hempty, hempty]
    · simp [targets, sort, read, hempty, hids, AttributeSort.kind, AttributeKind.isReference]

/-- A reference takes every link. -/
theorem exists_link? {s : Slot} (h : s.sort.kind.isReference = true) (l : Link) :
    ∃ t, s.link? l = some t := by
  cases s with
  | reference | referenceSet => exact ⟨_, rfl⟩
  | string | float | integer | boolean | phaseCode => exact nomatch h

/-- A link to one of the targets adds no target. -/
theorem targets_of_link? {s t : Slot} {l : Link} (h : s.link? l = some t)
    (hl : l.rdfid ∈ s.targets) : t.targets = s.targets := by
  cases s with
  | reference r =>
    obtain rfl : .reference (.linked l) = t := Option.some.inj h
    cases r <;> simp_all [targets, Reference.target?]
  | referenceSet s =>
    obtain rfl : .referenceSet (s.link l) = t := Option.some.inj h
    exact SortedMap.keys_insert_of_contains (SortedMap.contains_iff.mpr (SortedMap.mem_keys.mp hl))
  | string | float | integer | boolean | phaseCode => exact absurd hl List.not_mem_nil

end Slot

/-! ## What is visited -/

/-- One target of a used reference of an object. -/
structure Pointer where
  object : Object
  about : Descriptor
  target : String
deriving DecidableEq

namespace Pointer

def site (p : Pointer) : ReferenceSite :=
  ⟨p.object.cimType, p.object.rdfid, p.about.fullName, p.target⟩

/-- The failure of a target that the attribute does not admit. -/
def refusal (p : Pointer) (cimType : String) : ReferenceSite × Error :=
  (p.site, .typeMismatch p.about.fullName p.about.targets cimType)

/-- What is reported of a target that is not linked. -/
def diagnostic? (links : SortedMap String Link) (p : Pointer) : Option LinkDiagnostic :=
  match links.get? p.target with
  | none => some (.dangling p.site)
  | some l =>
    if p.about.admits l.cimType then none
    else some (.failure (p.refusal l.cimType).1 (p.refusal l.cimType).2)

end Pointer

/-- The targets of a field that are visited. -/
def Field.pointers (o : Object) (f : Field) : List Pointer :=
  if f.about.isUsed then f.slot.targets.map (⟨o, f.about, ·⟩) else []

theorem Field.about_of_mem_pointers {o : Object} {f : Field} {p : Pointer} (h : p ∈ f.pointers o) :
    p.about = f.about := by
  unfold pointers at h
  split at h
  · obtain ⟨t, -, rfl⟩ := List.mem_map.mp h
    rfl
  · exact absurd h List.not_mem_nil

/-- Whether the field is a used reference with a value. -/
def Field.isPointing (f : Field) : Bool :=
  f.about.isUsed && f.about.kind.isReference && f.slot.read.isSome

/-- These are the fields that are visited. -/
theorem Field.isPointing_eq (f : Field) :
    f.isPointing = (f.about.isUsed && !f.slot.targets.isEmpty) := by
  have hiff := Slot.targets_ne_nil_iff (s := f.slot)
  rw [f.sort_slot] at hiff
  unfold isPointing Descriptor.kind
  by_cases hempty : f.slot.targets = []
  · have hnot : ¬(f.about.sort.kind.isReference = true ∧ f.slot.read.isSome = true) :=
      fun h => hiff.mpr h hempty
    grind
  · have hboth := hiff.mp hempty
    simp [hboth.1, hboth.2, hempty]

/-- The targets of an object that are visited, in order. -/
def Object.pointers (o : Object) : List Pointer := o.fields.flatMap (Field.pointers o)

/-- **No target of an attribute is visited twice.** -/
theorem Object.nodup_pointers {o : Object} (h : o.cls.Labelled) : o.pointers.Nodup := by
  unfold pointers
  rw [List.nodup_flatMap]
  constructor
  · intro f _
    unfold Field.pointers
    split
    · refine f.slot.nodup_targets.map fun a b heq => ?_
      exact congrArg Pointer.target heq
    · exact List.nodup_nil
  · have hlabels : o.fields.Pairwise fun f g => f.about.label ≠ g.about.label :=
      List.pairwise_map.mp (nodup_labels h)
    refine hlabels.imp fun {f g} hne => ?_
    intro p hf hg
    exact hne (by rw [← Field.about_of_mem_pointers hf, ← Field.about_of_mem_pointers hg])

/-! ## What a visit reports -/

namespace LinkReport

/-- The report of the visit of these targets, of so many references of so many objects. -/
def ofPointers (links : SortedMap String Link) (objects references : Nat) (ps : List Pointer) :
    LinkReport where
  objects
  references
  resolved := ps.countP fun p => (p.diagnostic? links).isNone
  diagnostics := ps.filterMap (Pointer.diagnostic? links)

theorem ofPointers_append (links : SortedMap String Link) (a a' b b' : Nat)
    (ps qs : List Pointer) : ofPointers links a b ps ++ ofPointers links a' b' qs =
      ofPointers links (a + a') (b + b') (ps ++ qs) := by
  show append _ _ = _
  simp [append, ofPointers]

end LinkReport

namespace Object

variable {links : SortedMap String Link} {o : Object} {d : Descriptor} {slot : Slot}

open LinkReport

/-- A target of a reference is linked, or reported. -/
theorem linkTarget_snd (hslot : slot.sort.kind.isReference = true) (target : String) :
    (o.linkTarget links d slot target).2 = ofPointers links 0 0 [⟨o, d, target⟩] := by
  unfold linkTarget
  cases hl : links.get? target with
  | none => simp [ofPointers, Pointer.diagnostic?, hl, Pointer.site]
  | some l =>
    obtain ⟨t, ht⟩ := Slot.exists_link? hslot l
    by_cases hadmits : d.admits l.cimType
    · simp [ofPointers, Pointer.diagnostic?, hl, Descriptor.link, hadmits, ht]
    · simp [ofPointers, Pointer.diagnostic?, hl, Descriptor.link, hadmits, Pointer.refusal,
        Pointer.site]

theorem sort_linkTarget (slot : Slot) (target : String) :
    (o.linkTarget links d slot target).1.sort = slot.sort := by
  rw [linkTarget_fst]
  cases d.choose links target with
  | none => rfl
  | some l =>
    cases hlink : slot.link? l with
    | none => simp [hlink]
    | some t => simpa [hlink] using Slot.sort_of_link? hlink

theorem linkTargets_snd (hslot : slot.sort.kind.isReference = true) (targets : List String) :
    (o.linkTargets links d slot targets).2 =
      ofPointers links 0 0 (targets.map (⟨o, d, ·⟩)) := by
  induction targets generalizing slot with
  | nil => rfl
  | cons t ts ih =>
    have hfirst : (o.linkTarget links d slot t).2 = ofPointers links 0 0 [⟨o, d, t⟩] :=
      linkTarget_snd hslot t
    have hrest := @ih (o.linkTarget links d slot t).1 (by rwa [sort_linkTarget])
    show (o.linkTarget links d slot t).2 ++
      (o.linkTargets links d (o.linkTarget links d slot t).1 ts).2 = _
    rw [hfirst, hrest, ofPointers_append]
    rfl

theorem linkField_of_isPointing {f : Field} (h : f.isPointing = true) : o.linkField links f =
    (f.withSlot (o.linkTargets links f.about f.slot f.slot.targets).1,
      { references := 1 } ++ (o.linkTargets links f.about f.slot f.slot.targets).2) := by
  rw [Field.isPointing_eq] at h
  rw [linkField, if_pos h]

theorem linkField_of_not_isPointing {f : Field} (h : f.isPointing = false) :
    o.linkField links f = (f, {}) := by
  rw [Field.isPointing_eq] at h
  rw [linkField, if_neg (by simp [h])]

/-- A visited field counts as a reference if it is a used one with a value. -/
theorem linkField_snd (f : Field) : (o.linkField links f).2 =
    ofPointers links 0 (if f.isPointing then 1 else 0) (f.pointers o) := by
  cases hpointing : f.isPointing with
  | true =>
    have hparts : f.about.isUsed = true ∧ f.slot.targets ≠ [] := by
      simpa [Field.isPointing_eq] using hpointing
    have hslot : f.slot.sort.kind.isReference = true := (Slot.targets_ne_nil_iff.mp hparts.2).1
    rw [linkField_of_isPointing hpointing]
    show ofPointers links 0 1 [] ++ (o.linkTargets links f.about f.slot f.slot.targets).2 = _
    rw [linkTargets_snd hslot, ofPointers_append, Field.pointers, if_pos hparts.1]
    rfl
  | false =>
    have hnone : f.pointers o = [] := by
      unfold Field.pointers
      split
      · rename_i hused
        have hempty : f.slot.targets = [] := by
          simpa [Field.isPointing_eq, hused] using hpointing
        rw [hempty, List.map_nil]
      · rfl
    rw [linkField_of_not_isPointing hpointing, hnone]
    rfl

theorem linkFields_snd (fs : List Field) : (o.linkFields links fs).2 =
    ofPointers links 0 (fs.countP Field.isPointing) (fs.flatMap (Field.pointers o)) := by
  induction fs with
  | nil => rfl
  | cons f fs ih =>
    show (o.linkField links f).2 ++ (o.linkFields links fs).2 = _
    rw [linkField_snd, ih, ofPointers_append, List.countP_cons, List.flatMap_cons,
      Nat.add_comm (fs.countP _)]

/-- The used references of an object that hold a value. -/
def references (o : Object) : List Field := o.fields.filter Field.isPointing

theorem linkAll_snd (o : Object) (links : SortedMap String Link) : (o.linkAll links).2 =
    ofPointers links 1 o.references.length o.pointers := by
  show ofPointers links 1 0 [] ++ (o.linkFields links o.fields).2 = _
  rw [linkFields_snd, ofPointers_append, references, List.countP_eq_length_filter, Nat.zero_add]
  rfl

/-! ## What a visit leaves alone -/

/-- A target that is visited stays a target, and the only one it was. -/
theorem linkTarget_frame (hlinks : ∀ t l, links.get? t = some l → l.rdfid = t) {target : String}
    (htarget : target ∈ slot.targets) :
    (o.linkTarget links d slot target).1.targets = slot.targets := by
  rw [linkTarget_fst]
  cases hc : d.choose links target with
  | none => rfl
  | some l =>
    obtain rfl := hlinks target l (Descriptor.choose_eq_some.mp hc).1
    cases hlink : slot.link? l with
    | none => simp [hlink]
    | some t => simpa [hlink] using Slot.targets_of_link? hlink htarget

theorem linkTargets_frame (hlinks : ∀ t l, links.get? t = some l → l.rdfid = t)
    {targets : List String} (htargets : ∀ t ∈ targets, t ∈ slot.targets) :
    (o.linkTargets links d slot targets).1.sort = slot.sort ∧
      (o.linkTargets links d slot targets).1.targets = slot.targets := by
  induction targets generalizing slot with
  | nil => exact ⟨rfl, rfl⟩
  | cons t ts ih =>
    have hfirst := linkTarget_frame (o := o) (d := d) hlinks (htargets t (List.mem_cons_self ..))
    obtain ⟨hsort, hrest⟩ := @ih (o.linkTarget links d slot t).1 (by
      intro a ha
      rw [hfirst]
      exact htargets a (List.mem_cons_of_mem _ ha))
    exact ⟨hsort.trans (sort_linkTarget slot t), hrest.trans hfirst⟩

/-- **The text of an attribute stays as it is**, whatever it was linked to before. -/
theorem linkField_frame (hlinks : ∀ t l, links.get? t = some l → l.rdfid = t) (f : Field) :
    (o.linkField links f).1.slot.read = f.slot.read := by
  cases hpointing : f.isPointing with
  | true =>
    have hparts : f.about.isUsed = true ∧ f.slot.targets ≠ [] := by
      simpa [Field.isPointing_eq] using hpointing
    have hslot := (Slot.targets_ne_nil_iff.mp hparts.2).1
    obtain ⟨hsort, htargets⟩ := linkTargets_frame (o := o) (d := f.about) hlinks
      fun t (ht : t ∈ f.slot.targets) => ht
    rw [linkField_of_isPointing hpointing, Field.slot_withSlot (hsort.trans f.sort_slot)]
    exact Slot.read_congr hslot hsort htargets
  | false => rw [linkField_of_not_isPointing hpointing]

theorem texts_linkAll (hlinks : ∀ t l, links.get? t = some l → l.rdfid = t) (o : Object) :
    (o.linkAll links).1.texts = o.texts := by
  show (o.linkFields links o.fields).1.map _ = o.fields.map _
  rw [linkFields_fst, List.map_map]
  apply List.map_congr_left
  intro f _
  simp only [Function.comp_apply]
  rw [about_linkField, linkField_frame hlinks]

end Object

/-! ## Visiting by name -/

namespace Object

/-- Object and report after one target of the attribute of a name has been visited: the attribute is
looked up again for the link and for the report. -/
def visitTarget (links : SortedMap String Link) (o : Object) (name target : String) :
    Object × LinkReport :=
  let fullName := ((o.field? name).map fun f => f.about.fullName).getD name
  let site : ReferenceSite := ⟨o.cimType, o.rdfid, fullName, target⟩
  match links.get? target with
  | none => (o, { diagnostics := [.dangling site] })
  | some l =>
    match o.link name l with
    | .ok o => (o, { resolved := 1 })
    | .error e => (o, { diagnostics := [.failure site e] })

/-- Object and report after the targets have been visited in order. -/
def visitTargets (links : SortedMap String Link) (name : String) :
    Object → List String → Object × LinkReport
  | o, [] => (o, {})
  | o, target :: targets =>
    let (o, first) := o.visitTarget links name target
    let (o, rest) := visitTargets links name o targets
    (o, first ++ rest)

/-- Object and report after the attribute of a name has been visited. It fails on an unknown name,
and on a value whose shape is not that of the attribute's kind. -/
def visit (links : SortedMap String Link) (o : Object) (name : String) :
    Except Error (Object × LinkReport) := do
  let f ← o.field name
  if !f.about.isUsed || !f.about.kind.isReference then return (o, {})
  match ← o.get name with
  | none => return (o, {})
  | some value =>
    match f.about.kind, value with
    | .reference, .text target =>
      let (o, report) := o.visitTargets links name [target]
      return (o, { references := 1 } ++ report)
    | .referenceSet, .texts targets =>
      let (o, report) := o.visitTargets links name targets
      return (o, { references := 1 } ++ report)
    | _, _ => .error (.invalidValueShape f.about.fullName)

/-- Object and report after the attributes of the names have been visited in order, up to the first
that fails. -/
def visitAll (links : SortedMap String Link) :
    Object → List String → Except Error (Object × LinkReport)
  | o, [] => .ok (o, {})
  | o, name :: names => do
    let (o, first) ← o.visit links name
    let (o, rest) ← visitAll links o names
    .ok (o, first ++ rest)

variable {links : SortedMap String Link} {o x : Object} {f : Field} {name : String}

theorem sort_linkTargets (slot : Slot) (d : Descriptor) (targets : List String) :
    (o.linkTargets links d slot targets).1.sort = slot.sort := by
  induction targets generalizing slot with
  | nil => rfl
  | cons t ts ih => exact (ih _).trans (sort_linkTarget slot t)

/-- The targets of an attribute are visited as those of its field. -/
theorem visitTargets_eq (hcls : x.cls = o.cls) (hrdfid : x.rdfid = o.rdfid)
    (hf : x.field? name = some f) (targets : List String) :
    x.visitTargets links name targets =
      (x.replace name (o.linkTargets links f.about f.slot targets).1,
        (o.linkTargets links f.about f.slot targets).2) := by
  induction targets generalizing x f with
  | nil =>
    have hsame : x.replace name f.slot = x :=
      ext_fields rfl rfl rfl rfl (Field.replace_self hf)
    show (x, _) = (x.replace name f.slot, _)
    rw [hsame]
    rfl
  | cons t ts ih =>
    -- One target: either nothing changes, or the slot of the field is replaced.
    have hfirst : x.visitTarget links name t =
        (x.replace name (o.linkTarget links f.about f.slot t).1,
          (o.linkTarget links f.about f.slot t).2) := by
      have hsame : x.replace name f.slot = x :=
        ext_fields rfl rfl rfl rfl (Field.replace_self hf)
      have htype : x.cimType = o.cimType := congrArg CimClass.name hcls
      cases hl : links.get? t with
      | none => simp [visitTarget, linkTarget, hf, hl, htype, hrdfid, hsame]
      | some l =>
        have hlink : x.link name l = (f.about.link l f.slot).map (x.replace name) := by
          simp only [link, field_eq_ok_iff.mpr hf, bind, Except.bind, pure, Except.pure]
          cases f.about.link l f.slot <;> rfl
        cases hslot : f.about.link l f.slot with
        | ok s => simp [visitTarget, linkTarget, hl, hlink, hslot, Except.map]
        | error e =>
          simp [visitTarget, linkTarget, hf, hl, htype, hrdfid, hlink, hslot, Except.map, hsame]
    have hsort : (o.linkTarget links f.about f.slot t).1.sort = f.about.sort :=
      (sort_linkTarget f.slot t).trans f.sort_slot
    have hfound : (x.replace name (o.linkTarget links f.about f.slot t).1).field? name =
        some (f.withSlot (o.linkTarget links f.about f.slot t).1) := Field.find?_replace hf
    have hrest := @ih (x.replace name (o.linkTarget links f.about f.slot t).1) _ hcls hrdfid hfound
    rw [Field.about_withSlot, Field.slot_withSlot hsort] at hrest
    have hlast : (o.linkTargets links f.about (o.linkTarget links f.about f.slot t).1 ts).1.sort =
        f.about.sort := (sort_linkTargets ..).trans hsort
    unfold visitTargets
    simp only [hfirst, hrest]
    refine Prod.ext (ext_fields rfl rfl rfl rfl ?_) rfl
    exact Field.replace_replace hf hlast

/-- **An attribute is visited as its field**, and does not fail. -/
theorem visit_eq (hcls : x.cls = o.cls) (hrdfid : x.rdfid = o.rdfid)
    (hf : x.field? name = some f) :
    x.visit links name =
      .ok (x.replace name (o.linkField links f).1.slot, (o.linkField links f).2) := by
  have hfield : x.field name = .ok f := field_eq_ok_iff.mpr hf
  have hget : x.get name = .ok f.slot.read := by
    simp [get, hfield, bind, Except.bind, pure, Except.pure]
  have hsame : x.replace name f.slot = x := ext_fields rfl rfl rfl rfl (Field.replace_self hf)
  have hkind : f.slot.sort.kind = f.about.kind := by
    rw [f.sort_slot]
    rfl
  cases hpointing : f.isPointing with
  | true =>
    have hparts : (f.about.isUsed = true ∧ f.about.kind.isReference = true) ∧
        f.slot.read.isSome = true := by simpa [Field.isPointing] using hpointing
    obtain ⟨⟨hused, hreference⟩, hread⟩ := hparts
    have htargets : x.visitTargets links name f.slot.targets = _ :=
      visitTargets_eq hcls hrdfid hf f.slot.targets
    have hsort : (o.linkTargets links f.about f.slot f.slot.targets).1.sort = f.about.sort :=
      (sort_linkTargets f.slot f.about f.slot.targets).trans f.sort_slot
    rw [linkField_of_isPointing hpointing, Field.slot_withSlot hsort]
    rcases Slot.read_reference (hkind ▸ hreference) hread with
      ⟨t, hone, hvalue, hlist⟩ | ⟨hset, hvalue⟩
    · rw [hlist] at htargets ⊢
      rw [hkind] at hone
      simp [visit, hfield, hget, hused, AttributeKind.isReference, hone, hvalue, htargets, bind,
        Except.bind, pure, Except.pure]
    · rw [hkind] at hset
      simp [visit, hfield, hget, hused, AttributeKind.isReference, hset, hvalue, htargets, bind,
        Except.bind, pure, Except.pure]
  | false =>
    rw [linkField_of_not_isPointing hpointing, hsame]
    by_cases hskip : f.about.isUsed = true ∧ f.about.kind.isReference = true
    · have hnone : f.slot.read = none := by simpa [Field.isPointing, hskip] using hpointing
      simp [visit, hfield, hget, hskip, hnone, bind, Except.bind, pure, Except.pure]
    · have hpass : (!f.about.isUsed || !f.about.kind.isReference) = true := by
        by_cases hused : f.about.isUsed <;> simp_all
      simp [visit, hfield, hpass, bind, Except.bind, pure, Except.pure]

/-- The fields up to some place have been visited, those that follow are visited by their labels. -/
theorem visitAll_append (h : o.cls.Labelled) {pre post : List Field}
    (hfields : o.fields = pre ++ post) (hcls : x.cls = o.cls) (hrdfid : x.rdfid = o.rdfid)
    (hx : x.fields = (pre.map fun f => (o.linkField links f).1) ++ post) :
    ∃ y, x.visitAll links (post.map fun f => f.about.label) =
        .ok (y, (o.linkFields links post).2) ∧
      y.cls = x.cls ∧ y.id = x.id ∧ y.rdfid = x.rdfid ∧ y.model = x.model ∧
      y.fields = o.fields.map fun f => (o.linkField links f).1 := by
  induction post generalizing pre x with
  | nil =>
    refine ⟨x, rfl, rfl, rfl, rfl, rfl, ?_⟩
    rw [hx, hfields, List.append_nil, List.append_nil]
  | cons f post ih =>
    have hf : x.field? f.about.label = some f :=
      field?_of_mem (hcls ▸ h) (by simp [hx]) f.about.isNamed_label
    -- No field before this one goes by its label.
    have hbefore : ∀ g ∈ pre.map fun f => (o.linkField links f).1,
        ¬g.about.isNamed f.about.label = true := by
      intro g hg hnamed
      obtain ⟨a, ha, rfl⟩ := List.mem_map.mp hg
      rw [about_linkField] at hnamed
      have hlabel := Descriptor.label_eq_of_isNamed hnamed f.about.isNamed_label
      have hnodup := nodup_labels h
      rw [hfields, List.map_append, List.nodup_append] at hnodup
      exact hnodup.2.2 a.about.label (List.mem_map_of_mem (f := fun f : Field => f.about.label) ha)
        f.about.label (by simp) hlabel
    have hsort : (o.linkField links f).1.slot.sort = f.about.sort := by
      rw [(o.linkField links f).1.sort_slot, about_linkField]
    have hreplaced : (x.replace f.about.label (o.linkField links f).1.slot).fields =
        ((pre ++ [f]).map fun f => (o.linkField links f).1) ++ post := by
      have hfield : f.withSlot (o.linkField links f).1.slot = (o.linkField links f).1 := by
        have habout := o.about_linkField links f
        generalize o.linkField links f = r at *
        obtain ⟨⟨about, slot, hslot⟩, report⟩ := r
        obtain rfl : about = f.about := habout
        exact dif_pos hslot
      show Field.replace _ _ x.fields = _
      rw [hx, Field.replace_append hbefore f.about.isNamed_label, hfield]
      simp
    obtain ⟨y, hrest, hycls, hyid, hyrdfid, hymodel, hy⟩ :=
      @ih (x.replace f.about.label (o.linkField links f).1.slot) (pre ++ [f]) (by simp [hfields])
        hcls hrdfid hreplaced
    have hvisit : x.visit links f.about.label = _ := visit_eq hcls hrdfid hf
    refine ⟨y, ?_, hycls, hyid, hyrdfid, hymodel, hy⟩
    simp only [List.map_cons, visitAll, hvisit, hrest, bind, Except.bind]
    rfl

/-- **Attributes that are visited by their labels are visited as their fields, and none fails**: not
for an unknown name, and not for the shape of a value. -/
theorem visitAll_eq (h : o.cls.Labelled) : ∃ report, o.visitAll links o.cls.labels =
    .ok ((o.linkAll links).1, report) ∧ (o.linkAll links).2 = { objects := 1 } ++ report := by
  obtain ⟨y, hvisit, hcls, hid, hrdfid, hmodel, hfields⟩ :=
    @visitAll_append links o o h [] o.fields rfl rfl rfl rfl
  have hlinked : y = (o.linkAll links).1 :=
    ext_fields hcls hid hrdfid hmodel (hfields.trans (o.linkFields_fst links o.fields).symm)
  refine ⟨(o.linkFields links o.fields).2, ?_, rfl⟩
  rw [← o.labels_fields, hvisit, hlinked]

end Object

/-- Objects and report after the attributes of all objects have been visited by their labels. -/
def visitObjects (links : SortedMap String Link) :
    List Object → Except Error (List Object × LinkReport)
  | [] => .ok ([], {})
  | o :: os => do
    let (o, report) ← o.visitAll links o.cls.labels
    let (os, rest) ← visitObjects links os
    .ok (o :: os, ({ objects := 1 } ++ report) ++ rest)

theorem visitObjects_eq {links : SortedMap String Link} {os : List Object}
    (h : ∀ o ∈ os, o.cls.Labelled) : visitObjects links os = .ok (linkObjects links os) := by
  induction os with
  | nil => rfl
  | cons o os ih =>
    obtain ⟨ho, hos⟩ := List.forall_mem_cons.mp h
    obtain ⟨report, hvisit, hreport⟩ := @Object.visitAll_eq links o ho
    rw [visitObjects, hvisit, ih hos]
    show Except.ok ((o.linkAll links).1 :: _, ({ objects := 1 } ++ report) ++ _) = _
    rw [← hreport]
    rfl

/-- Links every object of a graph, with its attributes looked up by their labels. -/
def Graph.visitAll (g : Graph) : Except Error (Graph × LinkReport) := do
  let (objects, report) ← visitObjects g.links g.objects
  .ok ({ g with objects }, report)

/-- **A graph that is visited by labels is linked as `Graph.linkAll` links it**, with the same
report. -/
theorem Graph.visitAll_eq {g : Graph} (h : ∀ o ∈ g.objects, o.cls.Labelled) :
    g.visitAll = .ok g.linkAll := by
  rw [visitAll, visitObjects_eq h]
  rfl

end CimStore

import CimStore.Proofs.Attributes
import CimStore.Proofs.JsonText
import CimStore.Proofs.Runs

/-!
# Objects through a payload

Objects that are written as a payload are read from it with the same classes, rdf:IDs and values:

* `Slot.unlinked`, `Object.entered`: what is left of a slot and of an object in a payload;
* `Descriptor.write_read`: the texts that a slot is read as make that slot again, without links;
* `Entry.build_ofObject`: the entry of an object gives the object, attribute by attribute;
* `readObjects_writeObjects`: so does the payload of a list of objects;
* `interchange_roundTrip`: all of this as it is seen by name.
-/

namespace CimStore

/-! ## What is left of a slot -/

namespace Slot

/-- The slot without links. -/
def unlinked : Slot → Slot
  | reference r => .reference (r.target?.elim .empty .unlinked)
  | referenceSet s => .referenceSet ⟨s.members.mapValues fun _ _ => none⟩
  | s => s

@[simp]
theorem sort_unlinked (s : Slot) : s.unlinked.sort = s.sort := by
  cases s <;> rfl

@[simp]
theorem targets_unlinked (s : Slot) : s.unlinked.targets = s.targets := by
  cases s with
  | reference r => cases r <;> rfl
  | referenceSet s =>
    show (s.members.mapValues fun _ _ => none).keys = s.members.keys
    rw [SortedMap.keys, SortedMap.entries_mapValues, List.map_map]
    rfl
  | _ => rfl

@[simp]
theorem read_unlinked (s : Slot) : s.unlinked.read = s.read := by
  cases s with
  | reference r => cases r <;> rfl
  | referenceSet s =>
    exact read_bare (s := .referenceSet s) rfl
  | _ => rfl

@[simp]
theorem links_unlinked (s : Slot) : s.unlinked.links = [] := by
  cases s with
  | reference r => cases r <;> rfl
  | referenceSet s =>
    have hentries : (s.members.mapValues fun _ _ => (none : Option Link)).entries =
      s.members.entries.map fun e => (e.1, none) := SortedMap.entries_mapValues ..
    simp [unlinked, links, ReferenceSet.links, SortedMap.values, hentries]
  | _ => rfl

/-- A slot without a value is an empty one. -/
theorem unlinked_of_read_eq_none {s : Slot} (h : s.read = none) :
    s.unlinked = s.sort.emptySlot := by
  cases s with
  | string v | float v | integer v | boolean v | phaseCode v =>
    have hv : v = none := by simpa [read] using h
    rw [hv]
    rfl
  | reference r =>
    cases r with
    | empty => rfl
    | unlinked t => cases h
    | linked l => cases h
  | referenceSet s =>
    have hempty : s.members.entries = [] := by
      simpa [read, ReferenceSet.isEmpty, SortedMap.isEmpty] using h
    have hmembers : s.members.mapValues (fun _ _ => (none : Option Link)) = SortedMap.empty := by
      apply SortedMap.ext_get?
      intro t
      rw [SortedMap.get?_mapValues, SortedMap.get?_empty, SortedMap.get?, hempty]
      rfl
    simp [unlinked, hmembers, sort, AttributeSort.emptySlot, ReferenceSet.empty]

/-- What a slot is read as can be written into a payload. -/
theorem isCanonical_read {s : Slot} {v : Value} (h : s.read = some v) : Entry.IsCanonical v := by
  cases s with
  | referenceSet s =>
    by_cases hempty : s.isEmpty
    · simp [read, hempty] at h
    · obtain rfl : Value.texts s.ids = v := by simpa [read, hempty] using h
      exact s.members.keys_pairwise
  | string | float | integer | boolean | phaseCode | reference =>
    obtain ⟨_, -, rfl⟩ := Option.map_eq_some_iff.mp h
    trivial

/-- Only a set is read as several texts. -/
theorem sort_of_read_eq_texts {s : Slot} {ts : List String} (h : s.read = some (.texts ts)) :
    s.sort = .referenceSet := by
  cases s with
  | referenceSet s => rfl
  | string | float | integer | boolean | phaseCode | reference =>
    obtain ⟨_, -, heq⟩ := Option.map_eq_some_iff.mp h
    exact nomatch heq

end Slot

/-- **The texts that a slot is read as make that slot again**, without links, if the targets of
references are kept as they are. -/
theorem Descriptor.write_read {d : Descriptor} {s : Slot} {v : Value} (hsort : s.sort = d.sort)
    (hstable : s.IsStable) (hv : s.read = some v) :
    v.inputs.foldlM (fun slot text => d.write text slot) d.sort.emptySlot = .ok s.unlinked := by
  have hbare := Slot.reloaded_eq_bare hstable
  rw [← hsort]
  cases s with
  | string w =>
    obtain ⟨t, rfl, rfl⟩ := Option.map_eq_some_iff.mp hv
    rfl
  | float w =>
    obtain ⟨x, rfl, rfl⟩ := Option.map_eq_some_iff.mp hv
    simp [Value.inputs, Slot.sort, AttributeSort.emptySlot, Descriptor.write, Slot.write?,
      Binary.parse?_format binary64_isProper, Slot.unlinked]
  | integer w =>
    obtain ⟨i, rfl, rfl⟩ := Option.map_eq_some_iff.mp hv
    simp [Value.inputs, Slot.sort, AttributeSort.emptySlot, Descriptor.write, Slot.write?,
      parseInteger64?_formatInteger, Slot.unlinked]
  | boolean w =>
    obtain ⟨b, rfl, rfl⟩ := Option.map_eq_some_iff.mp hv
    simp [Value.inputs, Slot.sort, AttributeSort.emptySlot, Descriptor.write, Slot.write?,
      parseBoolean_formatBoolean, Slot.unlinked]
  | phaseCode w =>
    obtain ⟨p, rfl, rfl⟩ := Option.map_eq_some_iff.mp hv
    simp [Value.inputs, Slot.sort, AttributeSort.emptySlot, Descriptor.write, Slot.write?,
      PhaseCode.parse?_qualified, Slot.unlinked]
  | reference r =>
    obtain ⟨t, ht, rfl⟩ := Option.map_eq_some_iff.mp hv
    rw [Slot.unlinked, ← Slot.bare, ← hbare, Slot.reloaded, ht]
    rfl
  | referenceSet s =>
    have hids : v.inputs = s.ids := by
      by_cases hempty : s.isEmpty
      · simp [Slot.read, hempty] at hv
      · obtain rfl : Value.texts s.ids = v := by simpa [Slot.read, hempty] using hv
        rfl
    rw [hids, Slot.unlinked, ← Slot.bare, ← hbare, Slot.reloaded]
    exact Descriptor.write_members ..

/-! ## What is left of an object -/

namespace Field

/-- The field without links. -/
def unlinked (f : Field) : Field :=
  ⟨f.about, f.slot.unlinked, (Slot.sort_unlinked _).trans f.sort_slot⟩

/-- A field without a value is an empty one. -/
theorem unlinked_of_read_eq_none {f : Field} (h : f.slot.read = none) :
    f.unlinked = .empty f.about := by
  have hslot := Slot.unlinked_of_read_eq_none h
  rw [f.sort_slot] at hslot
  simp [unlinked, empty, hslot]

end Field

namespace Object

/-- The object as a payload gives it: not stored yet, and without links. -/
def entered (o : Object) : Object :=
  { o with
    id := none
    model := none
    fields := o.fields.map Field.unlinked
    fields_about := by
      rw [List.map_map]
      exact o.fields_about }

theorem texts_entered (o : Object) : o.entered.texts = o.texts := by
  simp [texts, entered, Field.unlinked, Function.comp_def]

theorem links_entered (o : Object) : ∀ f ∈ o.entered.fields, f.slot.links = [] := by
  intro f hf
  obtain ⟨g, -, rfl⟩ := List.mem_map.mp hf
  exact g.slot.links_unlinked

/-- The object can be read back from a payload by readers of the catalog: they know its class, its
rdf:ID and the targets of its references are kept as they are. -/
structure Enterable (k : Catalog) (o : Object) : Prop where
  known : k.get? o.cimType = some o.cls
  identified : o.rdfid ≠ "" ∧ normalizeId o.rdfid = o.rdfid
  stable : ∀ f ∈ o.fields, f.slot.IsStable

instance (k : Catalog) (o : Object) : Decidable (o.Enterable k) :=
  decidable_of_iff (k.get? o.cimType = some o.cls ∧ (o.rdfid ≠ "" ∧ normalizeId o.rdfid = o.rdfid) ∧
    ∀ f ∈ o.fields, f.slot.IsStable) ⟨fun h => ⟨h.1, h.2.1, h.2.2⟩, fun h => ⟨h.1, h.2, h.3⟩⟩

end Object

/-! ## Reading what was written -/

namespace Entry

variable {k : Catalog} {o : Object}

/-- A field of the object, still empty if its label is one of these. -/
def pendingField (labels : List String) (f : Field) : Field :=
  if f.about.label ∈ labels then .empty f.about else f.unlinked

@[simp]
theorem about_pendingField (labels : List String) (f : Field) :
    (pendingField labels f).about = f.about := by
  unfold pendingField
  split <;> rfl

/-- The object with the fields of the labels still empty. -/
def pending (o : Object) (labels : List String) : Object :=
  { o.entered with
    fields := o.fields.map (pendingField labels)
    fields_about := by
      rw [List.map_map]
      exact (List.map_congr_left fun f _ => about_pendingField labels f).trans o.fields_about }

/-- One attribute is set, the ones after it are still empty. -/
theorem setValue_pending (h : o.cls.Labelled) {f : Field} (hf : f ∈ o.fields)
    (hstable : f.slot.IsStable) {v : Value} (hv : f.slot.read = some v) (labels : List String)
    (hnew : f.about.label ∉ labels) :
    (pending o (f.about.label :: labels)).setValue f.about.label v = .ok (pending o labels) := by
  have hempty : .empty f.about ∈ (pending o (f.about.label :: labels)).fields :=
    List.mem_map.mpr ⟨f, hf, if_pos (List.mem_cons_self ..)⟩
  have hfound : (pending o (f.about.label :: labels)).field? f.about.label =
      some (.empty f.about) :=
    Object.field?_of_mem h hempty f.about.isNamed_label
  have hshape : ∀ ts, v = .texts ts → (Field.empty f.about).about.kind = .referenceSet := by
    rintro ts rfl
    show f.about.sort.kind = .referenceSet
    rw [← f.sort_slot, Slot.sort_of_read_eq_texts hv]
    rfl
  rw [Object.setValue_eq hfound hshape (Descriptor.write_read f.sort_slot hstable hv)]
  refine congrArg Except.ok (Object.ext_fields rfl rfl rfl rfl ?_)
  rw [Object.replace_fields (o := pending o (f.about.label :: labels)) h]
  show (o.fields.map _).map _ = o.fields.map _
  rw [List.map_map]
  apply List.map_congr_left
  intro g hg
  simp only [Function.comp_apply, about_pendingField]
  -- The only field that goes by the label is the one that is set.
  by_cases hlabel : g.about.label = f.about.label
  · obtain rfl : g = f := List.inj_on_of_nodup_map (Object.nodup_labels h) hg hf hlabel
    rw [if_pos g.about.isNamed_label, pendingField, if_pos (List.mem_cons_self ..), pendingField,
      if_neg hnew]
    exact dif_pos ((Slot.sort_unlinked _).trans g.sort_slot)
  · have hunnamed : ¬g.about.isNamed f.about.label = true := fun hname =>
      hlabel (Descriptor.label_eq_of_isNamed hname f.about.isNamed_label)
    rw [if_neg hunnamed]
    simp [pendingField, hlabel]

/-- Entries are set one after the other. -/
theorem foldlM_pending (h : o.cls.Labelled) (hstable : ∀ f ∈ o.fields, f.slot.IsStable)
    {es : List (String × Value)} (hnodup : (es.map (·.1)).Nodup)
    (hes : ∀ e ∈ es, ∃ f ∈ o.fields, f.about.label = e.1 ∧ f.slot.read = some e.2) :
    es.foldlM (fun o a => o.setValue a.1 a.2) (pending o (es.map (·.1))) = .ok o.entered := by
  induction es with
  | nil =>
    refine congrArg Except.ok (Object.ext_fields rfl rfl rfl rfl ?_)
    simp [pending, pendingField, Object.entered]
  | cons e es ih =>
    obtain ⟨hnew, hnodup⟩ := List.nodup_cons.mp hnodup
    obtain ⟨f, hf, hlabel, hv⟩ := hes e (List.mem_cons_self ..)
    have hset := setValue_pending h hf (hstable f hf) hv (es.map (·.1)) (hlabel ▸ hnew)
    rw [List.foldlM_cons, List.map_cons, ← hlabel, hset]
    exact ih hnodup fun a ha => hes a (List.mem_cons_of_mem _ ha)

/-- **The entry of an object gives the object.** -/
theorem build_ofObject (hk : k.Labelled) (ho : o.Enterable k) :
    (ofObject o).build k = .ok o.entered := by
  have h : o.cls.Labelled := hk.of_get? ho.known
  have hread : ∀ f ∈ o.fields, ∀ v, f.slot.read = some v ↔
      (f.about.label, v) ∈ (ofObject o).attributes.entries := by
    intro f hf v
    rw [← SortedMap.get?_eq_some_iff, get?_attributes_ofObject h hf]
  -- Before the first entry all fields are empty: those without an entry have no value.
  have hstart : ({ Object.new o.cls with rdfid := normalizeId o.rdfid } : Object) =
      pending o ((ofObject o).attributes.entries.map (·.1)) := by
    refine Object.ext_fields rfl rfl ho.identified.2 rfl ?_
    show o.cls.attributes.map Field.empty = o.fields.map _
    rw [← o.fields_about, List.map_map]
    refine List.map_congr_left fun f hf => ?_
    simp only [Function.comp_apply, pendingField]
    split
    · rfl
    · rename_i hnot
      cases hv : f.slot.read with
      | none => exact (Field.unlinked_of_read_eq_none hv).symm
      | some v => exact absurd (List.mem_map_of_mem (f := (·.1)) ((hread f hf v).mp hv)) hnot
  have hclass : k.newObject o.cimType = .ok (Object.new o.cls) := by
    rw [Catalog.newObject, Catalog.find_eq_ok_iff.mpr ho.known]
    rfl
  show (k.newObject o.cimType >>= _) = _
  rw [hclass]
  show (ofObject o).attributes.entries.foldlM _
    ({ Object.new o.cls with rdfid := normalizeId o.rdfid } : Object) = _
  rw [hstart]
  exact foldlM_pending h ho.stable (SortedMap.keys_nodup _) fun e he => read_of_mem_ofObject he

theorem isCanonical_ofObject (o : Object) :
    ∀ a ∈ (ofObject o).attributes.entries, IsCanonical a.2 := by
  intro a ha
  obtain ⟨f, -, -, hread⟩ := read_of_mem_ofObject ha
  exact Slot.isCanonical_read hread

/-- Objects with different rdf:IDs are added one after the other. -/
theorem buildAll_map_ofObject (hk : k.Labelled) {os : List Object}
    (hos : ∀ o ∈ os, o.Enterable k) (hnodup : (os.map (·.rdfid)).Nodup)
    {objects : SortedMap String Object} (hnew : ∀ o ∈ os, objects.contains o.rdfid = false) :
    buildAll k (os.map ofObject) objects =
      .ok (os.foldl (fun objects o => objects.insert o.rdfid o.entered) objects) := by
  induction os generalizing objects with
  | nil => rfl
  | cons o os ih =>
    obtain ⟨hfresh, hnodup⟩ := List.nodup_cons.mp hnodup
    have ho := hos o (List.mem_cons_self ..)
    have hid : o.entered.rdfid ≠ "" := ho.identified.1
    have hnone : objects.contains o.entered.rdfid = false := hnew o (List.mem_cons_self ..)
    have hnew' : ∀ a ∈ os, (objects.insert o.rdfid o.entered).contains a.rdfid = false := by
      intro a ha
      have hne : o.rdfid ≠ a.rdfid := fun heq => hfresh (List.mem_map.mpr ⟨a, ha, heq.symm⟩)
      rw [SortedMap.contains, SortedMap.get?_insert, if_neg hne]
      exact hnew a (List.mem_cons_of_mem _ ha)
    have hrest := ih (fun a ha => hos a (List.mem_cons_of_mem _ ha)) hnodup hnew'
    rw [List.map_cons, buildAll, build_ofObject hk ho]
    simp only [bind, Except.bind, hid, hnone, if_false, Bool.false_eq_true]
    exact hrest

end Entry

/-- **The payload of objects gives these objects.** -/
theorem readObjects_writeObjects {k : Catalog} (hk : k.Labelled) {os : List Object}
    (hos : ∀ o ∈ os, o.Enterable k) (hnodup : (os.map (·.rdfid)).Nodup) :
    readObjects k (writeObjects os) =
      .ok (SortedMap.ofList (os.map fun o => (o.rdfid, o.entered))) := by
  have htext : Entry.readAll (writeObjects os) = .ok (os.map Entry.ofObject) := by
    apply Entry.readAll_renderAll
    intro e he
    obtain ⟨o, -, rfl⟩ := List.mem_map.mp he
    exact Entry.isCanonical_ofObject o
  rw [readObjects, htext, SortedMap.ofList, List.foldl_map]
  exact Entry.buildAll_map_ofObject hk hos hnodup fun o _ => rfl

/-- What is read of a payload of objects, under each rdf:ID. -/
theorem get?_ofList_entered {os : List Object} (hnodup : (os.map (·.rdfid)).Nodup) {o : Object}
    (ho : o ∈ os) :
    (SortedMap.ofList (os.map fun o => (o.rdfid, o.entered))).get? o.rdfid = some o.entered := by
  refine SortedMap.get?_ofList_of_mem ?_ (List.mem_map.mpr ⟨o, ho, rfl⟩)
  rwa [List.map_map]

/-- What is read of a payload of objects, in the order of their rdf:IDs. -/
theorem perm_entries_entered {os : List Object} (hnodup : (os.map (·.rdfid)).Nodup) :
    (SortedMap.ofList (os.map fun o => (o.rdfid, o.entered))).entries.Perm
      (os.map fun o => (o.rdfid, o.entered)) := by
  refine SortedMap.perm_entries_ofList ?_
  rwa [List.map_map]

theorem keys_ofList_entered {os : List Object} (hnodup : (os.map (·.rdfid)).Nodup) :
    (SortedMap.ofList (os.map fun o => (o.rdfid, o.entered))).keys.Perm (os.map (·.rdfid)) := by
  have hkeys := (perm_entries_entered hnodup).map (·.1)
  rwa [List.map_map] at hkeys

/-- **Interchange round trip.** Objects of known classes are written, each value under the label by
which it is got. If their rdf:IDs are different, and these and the targets of references are kept as
they are, reading the payload gives exactly their rdf:IDs: under each an object of the same class
with the same value for every name of an attribute, used or not, and without links. -/
theorem interchange_roundTrip {k : Catalog} (hk : k.Labelled) {os : List Object}
    (hos : ∀ o ∈ os, o.Enterable k) (hnodup : (os.map (·.rdfid)).Nodup) :
    (∀ o ∈ os, ∀ label ∈ o.cls.labels,
      o.get label = .ok ((Entry.ofObject o).attributes.get? label)) ∧
    ∃ objects, readObjects k (writeObjects os) = .ok objects ∧
      objects.keys.Perm (os.map (·.rdfid)) ∧
      ∀ o ∈ os, ∃ x, objects.get? o.rdfid = some x ∧ x.cls = o.cls ∧ x.rdfid = o.rdfid ∧
        (∀ name, x.get name = o.get name) ∧ ∀ f ∈ x.fields, f.slot.links = [] := by
  constructor
  · intro o ho label hlabel
    have h : o.cls.Labelled := hk.of_get? (hos o ho).known
    rw [← o.labels_fields] at hlabel
    obtain ⟨f, hf, rfl⟩ := List.mem_map.mp hlabel
    rw [Object.get_of_mem h hf f.about.isNamed_label, Entry.get?_attributes_ofObject h hf]
  · refine ⟨_, readObjects_writeObjects hk hos hnodup, keys_ofList_entered hnodup, ?_⟩
    intro o ho
    exact ⟨o.entered, get?_ofList_entered hnodup ho, rfl, rfl,
      Object.get_congr rfl o.texts_entered, o.links_entered⟩

/-- A node whose name needs escapes, with two members of a set that is not used, besides the line
and the island of the small grid. -/
def awkwardGrid : List Object :=
  [SmallGrid.object .topologicalNode "_n \"1\"" [("name", "a\\b\n\x01\"ü"), ("Terminal", "_t2"),
      ("Terminal", "#_t1")], SmallGrid.line, SmallGrid.island]

/-- They are read back, the line with the sign of its zero. -/
theorem interchange_roundTrip_awkwardGrid : (∀ o ∈ awkwardGrid, o.Enterable .standard) ∧
    (awkwardGrid.map (·.rdfid)).Nodup ∧
    ∃ objects, readObjects .standard (writeObjects awkwardGrid) = .ok objects ∧
      ∃ x, objects.get? "_l" = some x ∧ x.get "x" = .ok (some (.text "-0")) := by
  have hos : ∀ o ∈ awkwardGrid, o.Enterable .standard := by decide +kernel
  have hnodup : (awkwardGrid.map (·.rdfid)).Nodup := by decide +kernel
  obtain ⟨-, objects, hread, -, hall⟩ :=
    interchange_roundTrip Catalog.standard_labelled hos hnodup
  obtain ⟨x, hx, -, -, hget, -⟩ := hall SmallGrid.line (by simp [awkwardGrid])
  have hvalue : SmallGrid.line.get "x" = .ok (some (.text "-0")) := by decide +kernel
  exact ⟨hos, hnodup, objects, hread, x, hx, (hget "x").trans hvalue⟩

end CimStore

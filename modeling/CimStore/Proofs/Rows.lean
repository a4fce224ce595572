import CimStore.Proofs.Layout
import CimStore.Proofs.Maps
import CimStore.Proofs.NearestNumber
import CimStore.Store.Database

/-!
# Rows written and read back

An object is stored as the row of its class and read back from it. If all tables that a store
declares are made, each with columns of its own (`Catalog.Storable`), nothing gets lost on the way,
and no value is refused:

* `Catalog.Storable.layOut_eq`: all tables are made;
* `ClassRow.ofObject_eq`: every object has a row, `Object.row`;
* `Object.fields_row`: from the row every used attribute is read back as `Slot.reloaded`, and every
  other one without a value;
* `Slot.reloaded_eq_bare`: that is what the slot held, without links and without the sign of zero,
  if the targets of references are ids in the form in which they are kept.
-/

namespace CimStore

/-! ## Classes that can be stored -/

/-- All tables of the class can be made, with names of their own, and its columns can be read
together: a query for the objects of a class has three more. -/
structure CimClass.Storable (c : CimClass) : Prop where
  valid : ∀ t ∈ c.declaredTables, t.Valid
  distinct : Comparison.ignoringCase.Distinct (c.declaredTables.map Schema.Declared.table)
  width : c.columns.length + 3 ≤ Schema.maxColumns

instance (c : CimClass) : Decidable c.Storable :=
  decidable_of_iff ((∀ t ∈ c.declaredTables, t.Valid) ∧
    Comparison.ignoringCase.Distinct (c.declaredTables.map Schema.Declared.table) ∧
    c.columns.length + 3 ≤ Schema.maxColumns)
    ⟨fun ⟨hv, hd, hw⟩ => ⟨hv, hd, hw⟩, fun ⟨hv, hd, hw⟩ => ⟨hv, hd, hw⟩⟩

namespace CimClass.Storable

variable {c : CimClass}

/-- No two used attributes share a column. -/
theorem columns (h : c.Storable) : (c.columns.map fun d => Schema.columnName d.label).Nodup :=
  (List.nodup_cons.mp (h.valid _ (List.mem_cons_self ..)).columns.nodup).2

/-- No two used reference sets share a table of members. -/
theorem sets (h : c.Storable) : (c.referenceSets.map Descriptor.label).Nodup := by
  have htables : ((c.referenceSets.map Descriptor.label).map
      (Schema.joinTableName c.name)).Nodup := by
    have hjoin := (List.nodup_cons.mp h.distinct.nodup).2
    rwa [List.map_map] at hjoin ⊢
  exact htables.of_map _

end CimClass.Storable

/-- Every class is known by its own name and can be stored, and no table of a store has the name of
another one. A database would pass over the later of two tables with one name. -/
structure Catalog.Storable (k : Catalog) : Prop where
  named : ∀ e ∈ k.entries, e.2.name = e.1
  classes : ∀ e ∈ k.entries, e.2.Storable
  tables : Comparison.ignoringCase.Distinct ((Schema.tables k.values).map Schema.Declared.table)

/-- **All tables are made** that a store declares for classes that can be stored. -/
theorem Catalog.Storable.layOut_eq {k : Catalog} (hk : k.Storable) :
    Schema.layOut (Schema.statements ++ k.values.flatMap CimClass.schema) =
      some (Schema.tables k.values) := by
  have hfixed : Schema.modelTable.Valid ∧ Schema.identityTable.Valid := by decide +kernel
  refine (Schema.layOut_eq_tables_iff k.values).mpr ⟨hk.tables, fun t ht => ?_⟩
  rw [Schema.tables_eq, List.mem_cons, List.mem_cons, List.mem_flatMap] at ht
  rcases ht with rfl | rfl | ⟨c, hc, ht⟩
  · exact hfixed.1
  · exact hfixed.2
  · obtain ⟨e, he, rfl⟩ := List.mem_map.mp hc
    exact (hk.classes e he).valid t ht

/-- The classes that are known are some of those that were made known, each by its name. -/
theorem Catalog.mem_entries_ofClasses {cs : List CimClass} {e : String × CimClass}
    (h : e ∈ (Catalog.ofClasses cs).entries) : e.2.name = e.1 ∧ e.2 ∈ cs := by
  have hfold : ∀ k : Catalog, e ∈ (cs.foldl register k).entries →
      (e.2.name = e.1 ∧ e.2 ∈ cs) ∨ e ∈ k.entries := by
    clear h
    induction cs with
    | nil => exact fun k he => .inr he
    | cons c cs ih =>
      intro k he
      rcases ih _ he with ⟨hname, hmem⟩ | he
      · exact .inl ⟨hname, List.mem_cons_of_mem _ hmem⟩
      · have hget := SortedMap.get?_eq_some_iff.mpr he
        rw [register, SortedMap.get?_insert] at hget
        split at hget
        · rename_i hname
          rw [← Option.some.inj hget]
          exact .inl ⟨hname, List.mem_cons_self ..⟩
        · exact .inr (SortedMap.get?_eq_some_iff.mp hget)
  exact (hfold .empty h).resolve_right List.not_mem_nil

theorem CimClass.standard_storable : ∀ c ∈ CimClass.standard, c.Storable := by
  decide +kernel

/-- All standard classes can be stored in one store. -/
theorem Catalog.standard_storable : Catalog.standard.Storable where
  named _ he := (mem_entries_ofClasses he).1
  classes _ he := CimClass.standard_storable _ (mem_entries_ofClasses he).2
  tables := by
    rw [Schema.tables_eq]
    decide +kernel

theorem Catalog.Storable.name_eq {k : Catalog} (hk : k.Storable) {name : String} {c : CimClass}
    (h : k.get? name = some c) : c.name = name :=
  hk.named _ (SortedMap.get?_eq_some_iff.mp h)

theorem Catalog.Storable.storable {k : Catalog} (hk : k.Storable) {name : String} {c : CimClass}
    (h : k.get? name = some c) : c.Storable :=
  hk.classes _ (SortedMap.get?_eq_some_iff.mp h)

theorem Catalog.find_eq_ok_iff {k : Catalog} {name : String} {c : CimClass} :
    k.find name = .ok c ↔ k.get? name = some c := by
  unfold Catalog.find
  cases k.get? name with
  | none => simp
  | some c' => simp

/-! ## Values of one text -/

theorem PhaseCode.parse?_qualified (p : PhaseCode) : PhaseCode.parse? p.qualified = some p := by
  cases p <;> decide +kernel

theorem parseBoolean_formatBoolean (b : Bool) : parseBoolean (formatBoolean b) = b := by
  cases b <;> decide +kernel

namespace Slot

/-- What the column of a slot holds. A set has no column. -/
def cell : Slot → Cell
  | string v => v.elim .null .text
  | float v => v.elim .null fun x => .real x.unsignZero
  | integer v => v.elim .null fun i => .integer i.val
  | boolean v => v.elim .null fun b => .integer (if b then 1 else 0)
  | phaseCode v => v.elim .null fun p => .text p.qualified
  | reference r => r.target?.elim .null .text
  | referenceSet _ => .null

/-- The slot of a used attribute after the object has been stored and loaded again. -/
def reloaded : Slot → Slot
  | float v => .float (v.map Binary.unsignZero)
  | reference r => .reference ((r.target?.map Reference.ofId).getD .empty)
  | referenceSet s => .referenceSet (s.ids.foldl ReferenceSet.addId .empty)
  | s => s

/-- A set is read as its ids, also if there are none. -/
theorem members_read (s : ReferenceSet) :
    ((referenceSet s).read.map Value.members).getD [] = s.ids := by
  by_cases he : s.isEmpty
  · have hentries : s.members.entries = [] := by
      simpa [ReferenceSet.isEmpty, SortedMap.isEmpty] using he
    simp [read, he, ReferenceSet.ids, SortedMap.keys, hentries]
  · simp [read, he, Value.members]

theorem sort_reloaded (s : Slot) : s.reloaded.sort = s.sort := by
  cases s <;> rfl

/-- Loading links nothing. -/
theorem links_reloaded (s : Slot) : s.reloaded.links = [] := by
  cases s with
  | reference r =>
    have hof : ∀ t, (Reference.ofId t).link? = none := by
      intro t
      simp only [Reference.ofId, Reference.setId]
      split
      · rfl
      · rfl
    cases r with
    | empty => rfl
    | unlinked t => simp [reloaded, links, Reference.target?, hof]
    | linked l => simp [reloaded, links, Reference.target?, hof]
  | referenceSet s =>
    have hadd : ∀ (ts : List String) (s : ReferenceSet),
        (∀ t v, s.members.get? t = some v → v = none) →
        ∀ t v, (ts.foldl ReferenceSet.addId s).members.get? t = some v → v = none := by
      intro ts
      induction ts with
      | nil => exact fun _ h => h
      | cons a ts ih =>
        intro s hs
        refine ih (s.addId a) fun t v hv => ?_
        simp only [ReferenceSet.addId] at hv
        split at hv
        · exact hs t v hv
        · rw [SortedMap.get?_insert] at hv
          split at hv
          · exact (Option.some.inj hv).symm
          · exact hs t v hv
    refine List.filterMap_eq_nil_iff.mpr fun v hv => ?_
    obtain ⟨e, he, rfl⟩ := List.mem_map.mp hv
    exact hadd s.ids .empty (fun _ _ h => by cases h) e.1 e.2 (SortedMap.get?_eq_some_iff.mpr he)
  | _ => rfl

end Slot

/-- **No value is refused**: what an attribute is read as, its column takes. -/
theorem Descriptor.cell_read {d : Descriptor} {s : Slot} (h : s.sort = d.sort) :
    d.cell s.read = .ok s.cell := by
  unfold Descriptor.cell
  rw [← h]
  cases s with
  | string v => cases v <;> rfl
  | float v =>
    cases v with
    | none => rfl
    | some x => simp [Slot.read, Value.text?, Slot.sort, Cell.ofText?, Slot.cell,
        Binary.parse?_format binary64_isProper]
  | integer v =>
    cases v with
    | none => rfl
    | some i => simp [Slot.read, Value.text?, Slot.sort, Cell.ofText?, Slot.cell, parseInteger?,
        parseInteger64?_formatInteger]
  | boolean v =>
    cases v with
    | none => rfl
    | some b => simp [Slot.read, Value.text?, Slot.sort, Cell.ofText?, Slot.cell,
        parseBoolean_formatBoolean]
  | phaseCode v => cases v <;> rfl
  | reference r => cases r <;> rfl
  | referenceSet r =>
    by_cases he : r.isEmpty <;> simp [Slot.read, he, Value.text?, Slot.cell]

/-- What the column gives is read as the same value again. -/
theorem Descriptor.write_cell {d : Descriptor} {s : Slot} (h : s.sort = d.sort)
    (hkind : d.kind ≠ .referenceSet) :
    (s.cell.text? d.valueType).toList.foldlM (fun slot t => d.write t slot) d.sort.emptySlot =
      .ok s.reloaded := by
  unfold Descriptor.kind at hkind
  unfold Descriptor.valueType
  rw [← h] at hkind ⊢
  cases s with
  | string v => cases v <;> rfl
  | float v =>
    cases v with
    | none => rfl
    | some x => simp [Slot.cell, Cell.text?, Slot.reloaded, Slot.sort, AttributeSort.emptySlot,
        Descriptor.write, Slot.write?, Binary.parse?_format binary64_isProper]
  | integer v =>
    cases v with
    | none => rfl
    | some i => simp [Slot.cell, Cell.text?, Slot.reloaded, Slot.sort, AttributeSort.emptySlot,
        AttributeSort.valueType, Descriptor.write, Slot.write?, parseInteger64?_formatInteger]
  | boolean v =>
    cases v with
    | none => rfl
    | some b => cases b <;> simp [Slot.cell, Cell.text?, Slot.reloaded, Slot.sort,
        AttributeSort.emptySlot, AttributeSort.valueType, Descriptor.write, Slot.write?,
        parseBoolean_formatBoolean]
  | phaseCode v =>
    cases v with
    | none => rfl
    | some p => simp [Slot.cell, Cell.text?, Slot.reloaded, Slot.sort, AttributeSort.emptySlot,
        Descriptor.write, Slot.write?, PhaseCode.parse?_qualified]
  | reference r => cases r <;> rfl
  | referenceSet r => exact absurd rfl hkind

/-- The members of a set are added one by one and never refused. -/
theorem Descriptor.write_members (d : Descriptor) (ts : List String) (s : ReferenceSet) :
    ts.foldlM (fun slot t => d.write t slot) (.referenceSet s) =
      (.ok (.referenceSet (ts.foldl ReferenceSet.addId s)) : Except Error Slot) := by
  induction ts generalizing s with
  | nil => rfl
  | cons t ts ih =>
    rw [List.foldlM_cons, List.foldl_cons, ← ih]
    rfl

/-! ## The row of an object -/

namespace Field

/-- The field after the object has been stored and loaded again. -/
def reloaded (f : Field) : Field :=
  if f.about.isUsed then f.withSlot f.slot.reloaded else .empty f.about

theorem about_reloaded (f : Field) : f.reloaded.about = f.about := by
  unfold reloaded
  split
  · exact about_withSlot ..
  · rfl

@[simp]
theorem map_about_reloaded (fs : List Field) :
    (fs.map reloaded).map Field.about = fs.map Field.about := by
  rw [List.map_map]
  exact List.map_congr_left fun f _ => f.about_reloaded

theorem slot_withSlot {f : Field} {s : Slot} (h : s.sort = f.about.sort) :
    (f.withSlot s).slot = s := by
  rw [withSlot, dif_pos h]

theorem slot_reloaded {f : Field} (h : f.about.isUsed = true) :
    f.reloaded.slot = f.slot.reloaded := by
  rw [reloaded, if_pos h, slot_withSlot (f.slot.sort_reloaded.trans f.sort_slot)]

theorem links_reloaded (f : Field) : f.reloaded.slot.links = [] := by
  by_cases hused : f.about.isUsed
  · rw [slot_reloaded hused, Slot.links_reloaded]
  · rw [reloaded, if_neg hused]
    show f.about.sort.emptySlot.links = []
    cases f.about.sort <;> rfl

/-- Whether the field is kept in a column. -/
def isColumn (f : Field) : Bool := f.about.isUsed && f.about.kind != .referenceSet

/-- Whether the field is kept in a table of members. -/
def isSet (f : Field) : Bool := f.about.isUsed && f.about.kind == .referenceSet

end Field

namespace Object

/-- What the class table and the tables of members keep of an object. -/
def row (o : Object) : ClassRow where
  cells := SortedMap.ofList
    ((o.fields.filter Field.isColumn).map fun f => (Schema.columnName f.about.label, f.slot.cell))
  members := SortedMap.ofList ((o.fields.filter Field.isSet).map ClassRow.set)

/-- The object after it has been stored and loaded again. -/
def reloaded (o : Object) (id : Int) (rdfid : String) (model : Int) : Object :=
  { o with
    id := some id
    rdfid := rdfid
    model := some model
    fields := o.fields.map Field.reloaded
    fields_about := (Field.map_about_reloaded ..).trans o.fields_about }

end Object

/-- **Every object has a row.** -/
theorem ClassRow.ofObject_eq (o : Object) : ClassRow.ofObject o = .ok o.row := by
  have hcolumn : ∀ f : Field,
      ClassRow.column f = .ok (Schema.columnName f.about.label, f.slot.cell) := fun f => by
    rw [ClassRow.column, Descriptor.cell_read f.sort_slot]
    rfl
  have hcolumns : ∀ fs : List Field, fs.mapM ClassRow.column =
      .ok (fs.map fun f => (Schema.columnName f.about.label, f.slot.cell)) := fun fs => by
    rw [funext hcolumn]
    exact List.mapM_pure
  rw [ClassRow.ofObject, hcolumns]
  rfl

section Columns

variable {o : Object} {f : Field}

/-- The columns of the class are the attributes of the fields that are kept in one. -/
theorem Object.columns_cls (o : Object) :
    o.cls.columns = (o.fields.filter Field.isColumn).map Field.about := by
  rw [CimClass.columns, ← o.fields_about, List.filter_map]
  rfl

theorem Object.referenceSets_cls (o : Object) :
    o.cls.referenceSets = (o.fields.filter Field.isSet).map Field.about := by
  rw [CimClass.referenceSets, ← o.fields_about, List.filter_map]
  rfl

/-- The column of a field holds the field's cell. -/
theorem Object.get?_cells_row (hc : o.cls.Storable) (hf : f ∈ o.fields) (hcol : f.isColumn) :
    o.row.cells.get? (Schema.columnName f.about.label) = some f.slot.cell := by
  have hkeys : o.cls.columns.map (fun d => Schema.columnName d.label) =
      ((o.fields.filter Field.isColumn).map
        fun f => (Schema.columnName f.about.label, f.slot.cell)).map (·.1) := by
    rw [o.columns_cls, List.map_map, List.map_map]
    rfl
  refine SortedMap.get?_ofList_of_mem (hkeys ▸ hc.columns) ?_
  exact List.mem_map_of_mem (f := fun f => (Schema.columnName f.about.label, f.slot.cell))
    (List.mem_filter.mpr ⟨hf, hcol⟩)

/-- The table of a set holds the field's targets. -/
theorem Object.get?_members_row (hc : o.cls.Storable) (hf : f ∈ o.fields) (hset : f.isSet) :
    o.row.members.get? f.about.label = some ((f.slot.read.map Value.members).getD []) := by
  have hkeys : o.cls.referenceSets.map Descriptor.label =
      ((o.fields.filter Field.isSet).map ClassRow.set).map (·.1) := by
    rw [o.referenceSets_cls, List.map_map, List.map_map]
    rfl
  refine SortedMap.get?_ofList_of_mem (hkeys ▸ hc.sets) ?_
  exact List.mem_map_of_mem (f := ClassRow.set) (List.mem_filter.mpr ⟨hf, hset⟩)

/-- A field that is kept in a table of members holds a set. -/
theorem Field.exists_set_of_isSet (h : f.isSet) :
    f.about.sort = .referenceSet ∧ ∃ s, f.slot = .referenceSet s := by
  have hsort : f.about.sort = .referenceSet := by
    have hkind : f.about.isUsed = true ∧ f.about.sort.kind = .referenceSet := by
      simpa [Field.isSet, Descriptor.kind] using h
    cases hs : f.about.sort <;> simp_all [AttributeSort.kind]
  have hslot := f.sort_slot.trans hsort
  cases hs : f.slot with
  | referenceSet s => exact ⟨hsort, s, rfl⟩
  | string | float | integer | boolean | phaseCode | reference =>
    rw [hs] at hslot
    exact nomatch hslot

/-- The members of a set are read back. -/
theorem Object.write_members_row (hc : o.cls.Storable) (hf : f ∈ o.fields) (hset : f.isSet) :
    ((o.row.members.get? f.about.label).getD []).foldlM (fun slot t => f.about.write t slot)
      f.about.sort.emptySlot = .ok f.slot.reloaded := by
  obtain ⟨hsort, s, hslot⟩ := Field.exists_set_of_isSet hset
  rw [Object.get?_members_row hc hf hset, hsort, Option.getD_some, hslot, Slot.members_read]
  exact Descriptor.write_members ..

/-- One attribute is read back. -/
theorem Object.field_row (hc : o.cls.Storable) (hf : f ∈ o.fields) :
    o.row.field f.about = .ok f.reloaded := by
  have hsort := f.slot.sort_reloaded.trans f.sort_slot
  -- The slot is what the texts of the row make of an empty one.
  have hslot : (o.row.texts f.about).foldlM (fun slot t => f.about.write t slot)
      f.about.sort.emptySlot = .ok (if f.about.isUsed then f.slot.reloaded
        else f.about.sort.emptySlot) := by
    unfold ClassRow.texts
    by_cases hused : f.about.isUsed
    · by_cases hkind : f.about.kind = .referenceSet
      · rw [if_neg (by simp [hused]), if_pos hkind, if_pos hused]
        exact Object.write_members_row hc hf (by simp [Field.isSet, hused, hkind])
      · rw [if_neg (by simp [hused]), if_neg hkind, if_pos hused,
          Object.get?_cells_row hc hf (by simp [Field.isColumn, hused, hkind]), Option.bind_some]
        exact Descriptor.write_cell f.sort_slot hkind
    · rw [if_pos (by simp [hused]), if_neg hused]
      rfl
  rw [ClassRow.field, hslot]
  show Except.ok _ = _
  congr 1
  unfold Field.reloaded
  split
  · simp [Field.withSlot, hsort, Field.empty]
  · unfold Field.withSlot
    split <;> rfl

end Columns

/-- Attributes that are read one by one are read together. -/
theorem ClassRow.fields_eq {row : ClassRow} {g : Field → Field}
    (habout : ∀ f, (g f).about = f.about) {fs : List Field}
    (h : ∀ f ∈ fs, row.field f.about = .ok (g f)) {ds : List Descriptor}
    (hds : (fs.map g).map Field.about = ds) : row.fields ds = .ok ⟨fs.map g, hds⟩ := by
  subst hds
  induction fs with
  | nil => rfl
  | cons f fs ih =>
    have hfirst : row.field (g f).about = .ok (g f) :=
      (congrArg row.field (habout f)).trans (h f (List.mem_cons_self ..))
    have hrest := ih fun f hf => h f (List.mem_cons_of_mem _ hf)
    show row.fields ((g f).about :: (fs.map g).map Field.about) = _
    rw [ClassRow.fields, hfirst, hrest]
    exact dif_pos rfl

/-- **The row gives every attribute back**: with its value if it is used, else without one. -/
theorem Object.fields_row {o : Object} (hc : o.cls.Storable) :
    o.row.fields o.cls.attributes =
      .ok ⟨o.fields.map Field.reloaded, (Field.map_about_reloaded _).trans o.fields_about⟩ :=
  ClassRow.fields_eq Field.about_reloaded (fun _ hf => Object.field_row hc hf) _

/-- An object is loaded from its row. -/
theorem Database.load?_eq {db : Database} {o : Object} {id : Int} {stored : StoredObject}
    (hget : db.objects.get? id = some stored) (hrow : stored.rows.get? o.cls.name = some o.row)
    (hc : o.cls.Storable) :
    db.load? o.cls id = some (.ok (o.reloaded id stored.rdfid stored.model)) := by
  simp only [Database.load?, hget, hrow, Option.bind_eq_bind, Option.bind_some,
    Object.fields_row hc]
  rfl

/-! ## What is kept -/

namespace Slot

/-- The slot without links and without the sign of zero. -/
def bare : Slot → Slot
  | float v => .float (v.map Binary.unsignZero)
  | reference r => .reference (r.target?.elim .empty .unlinked)
  | referenceSet s => .referenceSet ⟨s.members.mapValues fun _ _ => none⟩
  | s => s

/-- The one number whose stored form is another: zero with a minus sign. -/
def isNegativeZero : Slot → Bool
  | float (some x) => x.negative && x.mantissa = 0
  | _ => false

/-- The targets of a reference are kept as they are: there is an id and `normalizeId` leaves it. -/
def IsStable (s : Slot) : Prop := ∀ t ∈ s.targets, t ≠ "" ∧ normalizeId t = t

instance (s : Slot) : Decidable s.IsStable :=
  inferInstanceAs (Decidable (∀ t ∈ s.targets, t ≠ "" ∧ normalizeId t = t))

/-- Without its links a slot is read as before, and so it is without the sign of zero if it does
not hold a negative zero. -/
theorem read_bare {s : Slot} (h : s.isNegativeZero = false) : s.bare.read = s.read := by
  cases s with
  | float v =>
    cases v with
    | none => rfl
    | some x =>
      have hx : x.unsignZero = x := by
        unfold Binary.unsignZero
        split
        · rename_i hzero
          have hneg : x.negative = false := by simpa [isNegativeZero, hzero] using h
          rw [← hneg]
        · rfl
      simp [bare, hx]
  | reference r => cases r <;> rfl
  | referenceSet s =>
    have hentries : (s.members.mapValues fun _ _ => (none : Option Link)).entries =
      s.members.entries.map fun e => (e.1, none) := SortedMap.entries_mapValues ..
    simp only [bare, read, ReferenceSet.isEmpty, ReferenceSet.ids, SortedMap.isEmpty,
      SortedMap.keys, hentries, List.isEmpty_map, List.map_map]
    rfl
  | _ => rfl

private theorem foldl_addId {ts : List String} (hts : ∀ t ∈ ts, t ≠ "" ∧ normalizeId t = t)
    (s : ReferenceSet) (hs : ∀ t, s.members.contains t → s.members.get? t = some none)
    (t : String) :
    (ts.foldl ReferenceSet.addId s).members.get? t =
      if t ∈ ts then some none else s.members.get? t := by
  induction ts generalizing s with
  | nil => simp
  | cons a ts ih =>
    obtain ⟨hne, hnorm⟩ := hts a (List.mem_cons_self ..)
    have hadd : ∀ t, (s.addId a).members.get? t = if a = t then some none
        else s.members.get? t := by
      intro t
      simp only [ReferenceSet.addId, hnorm, hne, decide_false, Bool.false_or]
      split
      · rename_i hmem
        split
        · rename_i heq
          exact heq ▸ hs a hmem
        · rfl
      · exact SortedMap.get?_insert ..
    rw [List.foldl_cons, ih (fun t ht => hts t (List.mem_cons_of_mem _ ht)) (s.addId a), hadd]
    · by_cases h1 : t ∈ ts
      · simp [h1]
      · by_cases h2 : a = t
        · simp [h2]
        · simp [h1, h2, Ne.symm h2]
    · intro t ht
      obtain ⟨v, hv⟩ := SortedMap.contains_iff.mp ht
      rw [hadd] at hv ⊢
      split at hv
      · rename_i heq
        rw [if_pos heq]
      · rename_i hne
        rw [if_neg hne]
        exact hs t (SortedMap.contains_iff.mpr ⟨v, hv⟩)

/-- **Nothing but links and the sign of zero gets lost** if the targets are kept as they are. -/
theorem reloaded_eq_bare {s : Slot} (h : s.IsStable) : s.reloaded = s.bare := by
  cases s with
  | reference r =>
    have hof : ∀ t, t ≠ "" → normalizeId t = t → Reference.ofId t = .unlinked t := by
      intro t hne hnorm
      simp [Reference.ofId, Reference.setId, hnorm, hne, Reference.isLinked, Reference.link?]
    cases r with
    | empty => rfl
    | unlinked t =>
      obtain ⟨hne, hnorm⟩ := h t (by simp [targets, Reference.target?])
      simp [reloaded, bare, Reference.target?, hof t hne hnorm]
    | linked l =>
      obtain ⟨hne, hnorm⟩ := h l.rdfid (by simp [targets, Reference.target?])
      simp [reloaded, bare, Reference.target?, hof l.rdfid hne hnorm]
  | referenceSet s =>
    have hmembers : (s.ids.foldl ReferenceSet.addId .empty).members =
        s.members.mapValues fun _ _ => none := by
      refine SortedMap.ext_get? fun t => ?_
      rw [foldl_addId (show ∀ t ∈ s.ids, _ from h) .empty
        (fun t ht => absurd (show false = true from ht) Bool.false_ne_true),
        SortedMap.get?_mapValues]
      split
      · rename_i hmem
        obtain ⟨v, hv⟩ := SortedMap.mem_keys.mp hmem
        rw [hv]
        rfl
      · rename_i hmem
        cases hv : s.members.get? t with
        | none => rfl
        | some v => exact absurd (SortedMap.mem_keys.mpr ⟨v, hv⟩) hmem
    show Slot.referenceSet _ = Slot.referenceSet _
    rw [← hmembers]
  | _ => rfl

end Slot

end CimStore

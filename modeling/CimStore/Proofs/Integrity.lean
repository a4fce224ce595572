import CimStore.Proofs.History

/-!
# Integrity of a store

The rows of a class table and of a table of members are those of the stored objects. That no row is
there without its identity is not proved here: SQLite is assumed to keep the foreign keys of the
schema and to cascade where a row that they refer to is deleted.

* `Database.classTable` and `Database.joinTable` are the tables of a class and of a reference set,
  with all rows that any object has in them. `Database.Integrity` says what ties the tables
  together, and every sound database has it (`Database.Integrity.of_sound`).
* `Numbered`: what saving gives of ids. Each new id is larger than those in front of it.
* `Service.Reachable.integrity`: both hold in every state that a store goes through, and new ids
  are larger than all under which anything was stored, as long as nothing is rolled back.
-/

namespace CimStore

/-! ## Tables -/

/-- The row of an object has the columns of its class. -/
theorem Object.contains_cells_row {o : Object} (hc : o.cls.Storable) (column : String) :
    o.row.cells.contains column = true ↔
      column ∈ o.cls.columns.map fun d => Schema.columnName d.label := by
  rw [SortedMap.contains_iff, o.columns_cls, List.map_map, List.mem_map]
  constructor
  · rintro ⟨cell, hcell⟩
    obtain ⟨f, hf, heq⟩ := List.mem_map.mp (SortedMap.mem_of_get?_ofList hcell)
    exact ⟨f, hf, congrArg Prod.fst heq⟩
  · rintro ⟨f, hf, rfl⟩
    obtain ⟨hmem, hcol⟩ := List.mem_filter.mp hf
    exact ⟨_, Object.get?_cells_row hc hmem hcol⟩

/-- It has members for reference sets of its class only. -/
theorem Object.mem_referenceSets_of_members {o : Object} {label : String} {ts : List String}
    (h : o.row.members.get? label = some ts) : label ∈ o.cls.referenceSets.map Descriptor.label := by
  obtain ⟨f, hf, heq⟩ := List.mem_map.mp (SortedMap.mem_of_get?_ofList h)
  rw [o.referenceSets_cls, List.map_map]
  exact List.mem_map.mpr ⟨f, hf, congrArg Prod.fst heq⟩

namespace Database

/-- The rows of the table of a class: an id and its columns. -/
def classTable (db : Database) (cimType : String) : List (Int × SortedMap String Cell) :=
  db.objects.entries.filterMap fun e => (e.2.rows.get? cimType).map fun row => (e.1, row.cells)

/-- The rows of the table of a reference set: an id and a target. -/
def joinTable (db : Database) (cimType label : String) : List (Int × String) :=
  db.objects.entries.flatMap fun e =>
    (((e.2.rows.get? cimType).bind (·.members.get? label)).getD []).map (e.1, ·)

variable {k : Catalog} {db : Database}

theorem mem_classTable {cimType : String} {id : Int} {cells : SortedMap String Cell} :
    (id, cells) ∈ db.classTable cimType ↔
      ∃ st row, db.objects.get? id = some st ∧ st.rows.get? cimType = some row ∧
        row.cells = cells := by
  simp only [classTable, List.mem_filterMap, Option.map_eq_some_iff, Prod.mk.injEq, Prod.exists,
    ← SortedMap.get?_eq_some_iff]
  constructor
  · rintro ⟨_, st, hst, row, hrow, rfl, hcells⟩
    exact ⟨st, row, hst, hrow, hcells⟩
  · rintro ⟨st, row, hst, hrow, hcells⟩
    exact ⟨id, st, hst, row, hrow, rfl, hcells⟩

theorem mem_joinTable {cimType label target : String} {id : Int} :
    (id, target) ∈ db.joinTable cimType label ↔
      ∃ st row ts, db.objects.get? id = some st ∧ st.rows.get? cimType = some row ∧
        row.members.get? label = some ts ∧ target ∈ ts := by
  simp only [joinTable, List.mem_flatMap, List.mem_map, Prod.mk.injEq, Prod.exists,
    ← SortedMap.get?_eq_some_iff]
  constructor
  · rintro ⟨_, st, hst, t, ht, rfl, rfl⟩
    cases hrow : st.rows.get? cimType with
    | none => simp [hrow] at ht
    | some row =>
      cases hts : row.members.get? label with
      | none => simp [hrow, hts] at ht
      | some ts => exact ⟨st, row, ts, hst, hrow, hts, by simpa [hrow, hts] using ht⟩
  · rintro ⟨st, row, ts, hst, hrow, hts, ht⟩
    exact ⟨id, st, hst, target, by simpa [hrow, hts] using ht, rfl, rfl⟩

/-- What ties the tables of a store together. -/
structure Integrity (k : Catalog) (db : Database) : Prop where
  /-- No two objects of a model have one rdf:ID. -/
  unique : ∀ {i j a b}, db.objects.get? i = some a → db.objects.get? j = some b →
    a.model = b.model → a.rdfid = b.rdfid → i = j
  /-- Every object belongs to a stored model. -/
  owner : ∀ {id st}, db.objects.get? id = some st → ∃ name, db.models.get? st.model = some name
  /-- Every object has a row in the table of its class. -/
  own : ∀ {id st}, db.objects.get? id = some st → ∃ cells, (id, cells) ∈ db.classTable st.cimType
  /-- Every row of the table of a class belongs to a stored object. The class is known, and the row
  has its columns. -/
  classRow : ∀ {cimType id cells}, (id, cells) ∈ db.classTable cimType →
    (∃ st, db.objects.get? id = some st) ∧ ∃ c, k.get? cimType = some c ∧
      ∀ column, cells.contains column = true ↔
        column ∈ c.columns.map fun d => Schema.columnName d.label
  /-- Every row of the table of a reference set belongs to a stored object, which has a row in the
  table of the class, and the class has the set. -/
  member : ∀ {cimType label id target}, (id, target) ∈ db.joinTable cimType label →
    (∃ st, db.objects.get? id = some st) ∧ (∃ cells, (id, cells) ∈ db.classTable cimType) ∧
      ∃ c, k.get? cimType = some c ∧ label ∈ c.referenceSets.map Descriptor.label

theorem Integrity.of_sound (h : db.Sound k) (hk : k.Storable) : db.Integrity k where
  unique := h.unique
  owner := h.owner
  own hst := by
    obtain ⟨row, hrow⟩ := h.own hst
    exact ⟨_, mem_classTable.mpr ⟨_, row, hst, hrow, rfl⟩⟩
  classRow hmem := by
    obtain ⟨st, row, hst, hrow, rfl⟩ := mem_classTable.mp hmem
    obtain ⟨o, hcls, rfl⟩ := h.row hst hrow
    exact ⟨⟨st, hst⟩, o.cls, hcls, Object.contains_cells_row (hk.storable hcls)⟩
  member hmem := by
    obtain ⟨st, row, ts, hst, hrow, hts, -⟩ := mem_joinTable.mp hmem
    refine ⟨⟨st, hst⟩, ⟨_, mem_classTable.mpr ⟨st, row, hst, hrow, rfl⟩⟩, ?_⟩
    obtain ⟨o, hcls, rfl⟩ := h.row hst hrow
    exact ⟨o.cls, hcls, Object.mem_referenceSets_of_members hts⟩

end Database

/-! ## New ids -/

/-- The second list is the first with ids, as far as it has been saved: an object that had none has
one that is larger than `last` and than the ids of all objects in front of it. -/
inductive Numbered : Int → List Object → List Object → Prop
  /-- The rest has not been saved. -/
  | stop (last : Int) (os : List Object) : Numbered last os os
  | old {last id : Int} {o : Object} {os os' : List Object} : o.id = some id →
      Numbered (max last id) os os' → Numbered last (o :: os) (o :: os')
  | new {last id : Int} {o : Object} {os os' : List Object} : o.id = none → last < id →
      Numbered id os os' → Numbered last (o :: os) ({ o with id := some id } :: os')

namespace Store

/-- Ids are given in ascending order, after all that had been given. -/
theorem numbered_saveAll (c : CimClass) (db : Database) (os : List Object) :
    Numbered db.lastObject os (saveAll c db os).objects := by
  induction os generalizing db with
  | nil => exact .stop _ []
  | cons o os ih =>
    unfold saveAll
    rcases db.save_cases c o with ⟨e, hsave⟩ | ⟨model, id, db', hsave, -, hs⟩
    · simp only [hsave]
      exact .stop _ _
    · simp only [hsave]
      have hrest := ih db'
      rw [hs.lastObject] at hrest
      rcases hs.id_eq with hid | ⟨hid, rfl⟩
      · have hsame : { o with id := some id } = o := by rw [← hid]
        rw [hsame]
        exact .old hid hrest
      · rw [Int.max_eq_right (by omega)] at hrest
        exact .new hid (by omega) hrest

theorem numbered_saveBatch (s : Store) (cimType : String) (os : List Object) :
    Numbered s.db.lastObject os (s.saveBatch cimType os).1.1 := by
  unfold saveBatch
  split
  · exact .stop _ os
  · exact numbered_saveAll ..

end Store

namespace Service

variable {k : Catalog} {s : Service}

/-- **Store integrity.** From a state that a store is brought to, any operations are runs of calls
to the store, forward ones if nothing is rolled back; so `a` and `b` are any states that the store
goes through, those inside an operation included, with nothing rolled back after `a`. In all of them
the tables fit together. A batch in the later state gives objects only ids that are larger than all
that are stored in the earlier one, and a new model is given such an id too; what has been deleted
in the meantime makes no difference. -/
theorem Reachable.integrity (hk : k.Storable) (hs : Reachable k s) :
    (∀ ops, s.store.Run (s.perform ops).store ∧
      (¬s.RollsBack ops → s.store.Forward (s.perform ops).store)) ∧
    ∀ {a b : Store}, s.store.Run a → a.Forward b →
      a.db.Integrity k ∧ b.db.Integrity k ∧
      (∃ last, (∀ id, a.db.objects.contains id = true → id ≤ last) ∧
        ∀ cimType os, Numbered last os (b.saveBatch cimType os).1.1) ∧
      ∀ m id b', m.id = none → b.saveModel m = (.ok id, b') →
        ∀ n, a.modelExists n = true → n < id := by
  refine ⟨fun ops => run_performs ops s, fun {a b} ha hab => ?_⟩
  have hsound : a.Sound k := ha.sound hk (hs.sound hk)
  have hearlier := hab.earlier
  refine ⟨.of_sound hsound.db hk, .of_sound (hab.run.sound hk hsound).db hk,
    ⟨b.db.lastObject, fun id hid => ?_, b.numbered_saveBatch⟩, fun m id b' hm hsave n hn => ?_⟩
  · obtain ⟨st, hst⟩ := SortedMap.contains_iff.mp hid
    have hle := hsound.db.object_le hst
    have := hearlier.lastObject
    omega
  · obtain ⟨name, hname⟩ := SortedMap.contains_iff.mp hn
    have hle := hsound.db.model_le hname
    have := hearlier.lastModel
    rcases b.saveModel_cases m with ⟨i, hi, hid | ⟨-, hid⟩⟩ | ⟨e, he, -⟩
    · exact nomatch hm.symm.trans hid
    · cases hi.symm.trans hsave
      omega
    · exact nomatch he.symm.trans hsave

/-- A node for the other model. -/
def newNode : Object := { SmallGrid.node "_n3" with model := some 2 }

/-- After the grid has been deleted, the node is given an id that none of its objects had. -/
theorem Reachable.integrity_smallGrid :
    ((SmallGrid.service.perform [.delete 1]).store.saveBatch "TopologicalNode" [newNode]).1 =
        ([{ newNode with id := some 5 }], .ok ()) ∧
      (∀ id, SmallGrid.service.store.db.objects.contains id = true → id < 5) ∧
      (SmallGrid.service.perform [.delete 1]).store.db.Integrity .standard := by
  have hsaved : ((SmallGrid.service.perform [.delete 1]).store.saveBatch "TopologicalNode"
      [newNode]).1 = ([{ newNode with id := some 5 }], .ok ()) := by decide +kernel
  have hkept : ¬SmallGrid.service.RollsBack [.delete 1] := by
    have hbegun : SmallGrid.service.store.begun = none := by decide +kernel
    rintro (⟨-, hopen, -⟩ | hnil)
    · exact hopen hbegun
    · exact hnil
  obtain ⟨hruns, hall⟩ :=
    Reachable.integrity Catalog.standard_storable SmallGrid.reachable_service
  obtain ⟨-, hintegrity, ⟨last, hle, hnumbered⟩, -⟩ := hall .refl ((hruns [.delete 1]).2 hkept)
  have hnew := hnumbered "TopologicalNode" [newNode]
  rw [hsaved] at hnew
  have hlast : last < 5 := by
    cases hnew with
    | new _ hlt _ => exact hlt
  exact ⟨hsaved, fun id hid => Int.lt_of_le_of_lt (hle id hid) hlast, hintegrity⟩

end Service

end CimStore

import CimStore.Proofs.TableByTable

/-!
# Batches of ids, and the ids one by one

Ids are loaded and deleted in groups of `Store.batchSize`. The groups do not show:

* `Store.loadEach` and `Store.deleteEach` take the ids one after the other;
* `Database.row?_drop`: which rows a deletion leaves;
* `Store.Sound.loadEach_eq`: one by one, ascending ids are loaded as in a batch;
* `Store.deleteEach_eq`: one by one, any ids are deleted as in a batch;
* `Service.Reachable.batches_eq_each`: both, in every state that a store is brought to, and that
  it is the same as going table by table.
-/

namespace CimStore

/-! ## Rows -/

namespace Database

variable {db : Database} {cimType : String} {ids : List Int} {id : Int}

/-- The ids with a row of the class. -/
def rowIds (db : Database) (cimType : String) : List Int := (db.classTable cimType).map (·.1)

theorem mem_classTable_iff {cells : SortedMap String Cell} : (id, cells) ∈ db.classTable cimType ↔
    ∃ row, db.row? cimType id = some row ∧ row.cells = cells := by
  simp only [mem_classTable, row?_eq_some_iff]
  constructor
  · rintro ⟨st, row, hst, hrow, hcells⟩
    exact ⟨row, ⟨st, hst, hrow⟩, hcells⟩
  · rintro ⟨row, ⟨st, hst, hrow⟩, hcells⟩
    exact ⟨st, row, hst, hrow, hcells⟩

theorem mem_joinTable_iff {label target : String} : (id, target) ∈ db.joinTable cimType label ↔
    ∃ row ts, db.row? cimType id = some row ∧ row.members.get? label = some ts ∧ target ∈ ts := by
  simp only [mem_joinTable, row?_eq_some_iff]
  constructor
  · rintro ⟨st, row, ts, hst, hrow, hts⟩
    exact ⟨row, ts, ⟨st, hst, hrow⟩, hts⟩
  · rintro ⟨row, ts, ⟨st, hst, hrow⟩, hts⟩
    exact ⟨st, row, ts, hst, hrow, hts⟩

theorem mem_rowIds : id ∈ db.rowIds cimType ↔ (db.row? cimType id).isSome = true := by
  rw [rowIds, List.mem_map, Option.isSome_iff_exists]
  constructor
  · rintro ⟨⟨_, cells⟩, hmem, rfl⟩
    obtain ⟨row, hrow, -⟩ := mem_classTable_iff.mp hmem
    exact ⟨row, hrow⟩
  · rintro ⟨row, hrow⟩
    exact ⟨(id, row.cells), mem_classTable_iff.mpr ⟨row, hrow, rfl⟩, rfl⟩

/-- **A deletion leaves the rows of the class under the ids that it does not name.** -/
theorem row?_drop : (db.drop cimType ids).row? cimType id =
    if id ∈ ids then none else db.row? cimType id := by
  rw [row?, get?_drop]
  cases hst : db.objects.get? id with
  | none => simp [row?, hst]
  | some st =>
    by_cases hid : id ∈ ids
    · -- The object is gone, or it has lost the row.
      by_cases hown : st.cimType = cimType
      · simp [hid, hown]
      · simp [hid, hown, SortedMap.get?_erase]
    · simp [row?, hst, hid]

/-- It takes the rows under the ids out of the table of the class, and no others. -/
theorem mem_classTable_drop {cells : SortedMap String Cell} :
    (id, cells) ∈ (db.drop cimType ids).classTable cimType ↔
      (id, cells) ∈ db.classTable cimType ∧ id ∉ ids := by
  rw [mem_classTable_iff, mem_classTable_iff, row?_drop]
  by_cases hid : id ∈ ids <;> simp [hid]

/-- It takes the members under the ids out of the tables of the reference sets. -/
theorem mem_joinTable_drop {label target : String} :
    (id, target) ∈ (db.drop cimType ids).joinTable cimType label ↔
      (id, target) ∈ db.joinTable cimType label ∧ id ∉ ids := by
  rw [mem_joinTable_iff, mem_joinTable_iff, row?_drop]
  by_cases hid : id ∈ ids <;> simp [hid]

/-- Under any other id it leaves everything. -/
theorem get?_drop_of_not_mem (hid : id ∉ ids) :
    (db.drop cimType ids).objects.get? id = db.objects.get? id := by
  rw [get?_drop]
  cases db.objects.get? id <;> simp [hid]

/-- Under the ids no object of the class is left. -/
theorem cimType_ne_of_get?_drop {st : StoredObject} (hid : id ∈ ids)
    (hst : (db.drop cimType ids).objects.get? id = some st) : st.cimType ≠ cimType := by
  rw [get?_drop] at hst
  obtain ⟨old, -, hold⟩ := Option.bind_eq_some_iff.mp hst
  by_cases hown : old.cimType = cimType
  · simp [hid, hown] at hold
  · obtain rfl : _ = st := by simpa [hid, hown] using hold
    exact hown

end Database

namespace Store

variable {k : Catalog} {s : Store} {cimType : String} {c : CimClass}

/-! ## Loading -/

/-- Loads the objects of a class under the ids, one id after the other. -/
def loadEach (s : Store) (cimType : String) (ids : List Int) : Except Error (List Object) :=
  return (← ids.mapM fun id => s.loadBatch cimType [id]).flatten

/-- **One by one, ascending ids are loaded as in a batch.** -/
theorem Sound.loadEach_eq (h : s.Sound k) (hk : k.Storable) (hc : k.get? cimType = some c)
    {ids : List Int} (hasc : ids.Pairwise (· < ·)) :
    s.loadEach cimType ids = s.loadBatch cimType ids := by
  have hone : ∀ id, s.loadBatch cimType [id] = .ok (s.db.loaded? c id).toList := by
    intro id
    rw [h.loadBatch_eq_ok hk hc, flatMap_distinct_batches (List.pairwise_singleton ..)]
    cases hload : s.db.loaded? c id <;> simp [hload]
  have hall : ids.mapM (fun id => s.loadBatch cimType [id]) =
      .ok (ids.map fun id => (s.db.loaded? c id).toList) := by
    rw [funext hone]
    exact List.mapM_pure
  rw [h.loadBatch_eq_ok hk hc, flatMap_distinct_batches hasc, loadEach, hall,
    List.filterMap_eq_flatMap_toList, List.flatMap_def]
  rfl

/-- The objects that a batch loads are those of the ids with a row, in order and each once. -/
theorem Sound.map_id_loadBatch (h : s.Sound k) (hk : k.Storable) (hc : k.get? cimType = some c)
    {ids : List Int} (hasc : ids.Pairwise (· < ·)) :
    ∃ os, s.loadBatch cimType ids = .ok os ∧ (∀ o ∈ os, o.cls = c) ∧
      os.map (·.id) = (ids.filter (· ∈ s.db.rowIds cimType)).map some := by
  refine ⟨_, h.loadBatch_eq_ok hk hc ids, ?_⟩
  rw [flatMap_distinct_batches hasc]
  clear hasc
  induction ids with
  | nil => exact ⟨fun o ho => absurd ho List.not_mem_nil, rfl⟩
  | cons id ids ih =>
    rcases h.db.load?_cases hk hc id with ⟨hrow, hload⟩ | ⟨o, st, hst, hrow, hcls, hload⟩
    · have hmem : id ∉ s.db.rowIds cimType := by simp [Database.mem_rowIds, hrow]
      have hnone := Database.loaded?_eq_none hload
      rw [List.filterMap_cons_none hnone, List.filter_cons_of_neg (by simpa using hmem)]
      exact ih
    · have hmem : id ∈ s.db.rowIds cimType := by
        rw [Database.mem_rowIds, Database.row?_eq_some_iff.mpr ⟨st, hst, hrow⟩]
        rfl
      rw [List.filterMap_cons_some (Database.loaded?_of_load? hload),
        List.filter_cons_of_pos (by simpa using hmem), List.map_cons, List.map_cons, ih.2]
      exact ⟨List.forall_mem_cons.mpr ⟨hcls, ih.1⟩, rfl⟩

/-! ## Deleting -/

/-- Deletes the objects of a class under the ids, one id after the other. -/
def deleteEach (s : Store) (cimType : String) (ids : List Int) : Except Error Store :=
  ids.foldlM (fun s id => s.deleteBatch cimType [id]) s

/-- **One by one, ids of a known class are deleted as in a batch**, in any order and however often
they are named. -/
theorem deleteEach_eq (hfind : s.classes.find cimType = .ok c) (ids : List Int) :
    s.deleteEach cimType ids = s.deleteBatch cimType ids := by
  rw [deleteBatch_eq hfind]
  induction ids generalizing s with
  | nil => exact congrArg (fun db => Except.ok { s with db }) (s.db.foldl_drop c.name [])
  | cons id ids ih =>
    have hone := deleteBatch_eq hfind [id]
    show s.deleteBatch cimType [id] >>= (fun s => s.deleteEach cimType ids) = _
    rw [hone]
    show deleteEach { s with db := s.db.drop c.name [id] } cimType ids = _
    rw [ih (s := { s with db := s.db.drop c.name [id] }) hfind, ← Database.drop_append]
    rfl

end Store

namespace Service

variable {k : Catalog} {s : Service} {cimType : String} {c : CimClass}

/-- **Batches are as the ids one by one**, in every state that a store is brought to and for every
known class. Ascending ids give the objects of the class under those that have a row of it, each
once and in order; so do the ids one after the other, and so does reading table by table. Ids in any
order and with repetitions are deleted with the same outcome as one after the other, and as table by
table: their rows are gone from the table of the class and from those of its reference sets, no
object of the class is left under them, and whatever is stored under another id stays. -/
theorem Reachable.batches_eq_each (hk : k.Storable) (hs : Reachable k s)
    (hc : k.get? cimType = some c) :
    (∀ ids : List Int, ids.Pairwise (· < ·) →
      ∃ os, s.store.loadBatch cimType ids = .ok os ∧ s.store.loadEach cimType ids = .ok os ∧
        s.store.loadTables cimType ids = .ok os ∧ (∀ o ∈ os, o.cls = c) ∧
        os.map (·.id) = (ids.filter (· ∈ s.store.db.rowIds cimType)).map some) ∧
    ∀ ids : List Int, ∃ store, s.store.deleteBatch cimType ids = .ok store ∧
      s.store.deleteEach cimType ids = .ok store ∧
      s.store.deleteTables cimType ids = .ok store ∧
      (∀ id cells, (id, cells) ∈ store.db.classTable cimType ↔
        (id, cells) ∈ s.store.db.classTable cimType ∧ id ∉ ids) ∧
      (∀ label id target, (id, target) ∈ store.db.joinTable cimType label ↔
        (id, target) ∈ s.store.db.joinTable cimType label ∧ id ∉ ids) ∧
      (∀ id ∈ ids, ∀ st, store.db.objects.get? id = some st → st.cimType ≠ cimType) ∧
      ∀ id, id ∉ ids → store.db.objects.get? id = s.store.db.objects.get? id := by
  have h := hs.sound hk
  have hname : c.name = cimType := hk.name_eq hc
  have hfind : s.store.classes.find cimType = .ok c :=
    Catalog.find_eq_ok_iff.mpr (h.classes ▸ hc)
  refine ⟨fun ids hasc => ?_, fun ids => ?_⟩
  · obtain ⟨os, hload, hcls, hids⟩ := h.map_id_loadBatch hk hc hasc
    exact ⟨os, hload, (h.loadEach_eq hk hc hasc).trans hload,
      (h.loadTables_eq hk hc ids).trans hload, hcls, hids⟩
  · have hdelete := Store.deleteBatch_eq hfind ids
    refine ⟨_, hdelete, (Store.deleteEach_eq hfind ids).trans hdelete,
      (s.store.deleteTables_eq cimType ids).trans hdelete, ?_⟩
    rw [hname]
    exact ⟨fun _ _ => Database.mem_classTable_drop, fun _ _ _ => Database.mem_joinTable_drop,
      fun _ hid _ hst => Database.cimType_ne_of_get?_drop hid hst,
      fun _ hid => Database.get?_drop_of_not_mem hid⟩

end Service

namespace SmallGrid

/-- Ids of which those of the two stored nodes, 3 and 4, are in different groups. -/
def manyIds : List Int := (List.range 600).map fun n : Nat => (n : Int) - 496

theorem pairwise_manyIds : manyIds.Pairwise (· < ·) := by
  unfold manyIds
  generalize 600 = n
  rw [List.pairwise_map]
  exact List.pairwise_lt_range.imp fun h => by omega

end SmallGrid

namespace Service

/-- The grid's nodes are loaded across the bound of a group, and deleted when all ids are named
twice; the table of the reference set of the island stays. -/
theorem Reachable.batches_eq_each_smallGrid :
    (Store.batches SmallGrid.manyIds).map List.getLast? = [some 3, some 103] ∧
    (∃ os, SmallGrid.service.store.loadBatch "TopologicalNode" SmallGrid.manyIds = .ok os ∧
      SmallGrid.service.store.loadEach "TopologicalNode" SmallGrid.manyIds = .ok os ∧
      os.map (·.id) = [some 3, some 4]) ∧
    ∃ store, SmallGrid.service.store.deleteBatch "TopologicalNode"
        (SmallGrid.manyIds ++ SmallGrid.manyIds.reverse) = .ok store ∧
      SmallGrid.service.store.deleteEach "TopologicalNode"
        (SmallGrid.manyIds ++ SmallGrid.manyIds.reverse) = .ok store ∧
      (∀ id cells, (id, cells) ∉ store.db.classTable "TopologicalNode") := by
  have hc : Catalog.standard.get? "TopologicalNode" = some .topologicalNode := by decide +kernel
  obtain ⟨hload, hdelete⟩ :=
    Reachable.batches_eq_each Catalog.standard_storable SmallGrid.reachable_service hc
  have hrows : SmallGrid.service.store.db.rowIds "TopologicalNode" = [3, 4] := by decide +kernel
  refine ⟨by decide +kernel, ?_, ?_⟩
  · obtain ⟨os, hbatch, heach, -, -, hids⟩ := hload SmallGrid.manyIds SmallGrid.pairwise_manyIds
    refine ⟨os, hbatch, heach, ?_⟩
    rw [hids, hrows]
    decide +kernel
  · obtain ⟨store, hbatch, heach, -, hclass, -⟩ :=
      hdelete (SmallGrid.manyIds ++ SmallGrid.manyIds.reverse)
    refine ⟨store, hbatch, heach, fun id cells hmem => ?_⟩
    obtain ⟨hold, hnot⟩ := (hclass id cells).mp hmem
    have hnamed : ∀ id ∈ ([3, 4] : List Int), id ∈ SmallGrid.manyIds := by decide +kernel
    rw [← hrows] at hnamed
    exact hnot (List.mem_append_left _ (hnamed id (List.mem_map.mpr ⟨_, hold, rfl⟩)))

end Service

end CimStore

import CimStore.Proofs.Deleting
import CimStore.Proofs.Integrity
import CimStore.Proofs.Untouched

/-!
# Deleting a model

A model is deleted class by class, then its row. Its inventory names all its objects and no others,
so what is left is the content without the model (`Service.delete_eq`). That the rows of an object
go with its identity is assumed of SQLite, as the foreign keys of the schema cascade:

* `Database.Lacks`: no row of any table has the id;
* `Service.Reachable.delete_exact`: the rows of the objects of the model are gone and all others are
  there, every other model is untouched, and deleting the model again changes nothing.
-/

namespace CimStore

namespace Database

variable {k : Catalog} {db : Database} {model n id : Int}

/-- Ids that an inventory lists belong to objects of the model. -/
theorem mem_objectsOf_of_mem_idsByType {b : String × List Int}
    (hb : b ∈ (Service.idsByType (db.objectsOf model)).entries) (hid : id ∈ b.2) :
    (id, b.1) ∈ db.objectsOf model := by
  have hmem : (b.1, id) ∈ Service.byType (db.objectsOf model) :=
    List.mem_flatMap.mpr ⟨b, hb, List.mem_map_of_mem hid⟩
  exact Service.mem_byType.mp hmem

/-- Deleting the objects of a model by its inventory leaves those of other models as they are. -/
theorem dropModel_dropAll (db : Database) (model : Int) :
    (db.dropAll (Service.idsByType (db.objectsOf model)).entries).dropModel model =
      db.dropModel model := by
  have hshrinks := Shrinks.dropAll db (Service.idsByType (db.objectsOf model)).entries
  have hobjects : ((db.dropAll (Service.idsByType (db.objectsOf model)).entries).dropModel
      model).objects = (db.dropModel model).objects := by
    refine SortedMap.ext_get? fun id => Option.ext fun st => ?_
    rw [get?_dropModel, get?_dropModel]
    refine and_congr_left fun hne => ?_
    constructor
    · intro hst
      obtain ⟨st₀, hst₀, hmodel, -⟩ := hshrinks.old hst
      rwa [get?_dropAll_of_not_mem fun b hb hid => ?_] at hst
      obtain ⟨st₁, hst₁, hmodel₁, -⟩ := mem_objectsOf.mp (mem_objectsOf_of_mem_idsByType hb hid)
      rw [hst₀, Option.some.injEq] at hst₁
      exact hne (hmodel.trans (hst₁ ▸ hmodel₁))
    · intro hst
      rwa [get?_dropAll_of_not_mem fun b hb hid => ?_]
      obtain ⟨st₁, hst₁, hmodel₁, -⟩ := mem_objectsOf.mp (mem_objectsOf_of_mem_idsByType hb hid)
      rw [hst, Option.some.injEq] at hst₁
      exact hne (hst₁ ▸ hmodel₁)
  calc (db.dropAll (Service.idsByType (db.objectsOf model)).entries).dropModel model
      = { models := db.models.erase model, lastModel := db.lastModel,
          objects := (db.dropModel model).objects, lastObject := db.lastObject } := by
        rw [← hobjects]
        simp only [dropModel, hshrinks.models, hshrinks.lastModel, hshrinks.lastObject]
    _ = db.dropModel model := rfl

/-- Every class that an inventory lists is known. -/
theorem Sound.known_of_mem_idsByType (h : db.Sound k) (hk : k.Storable) {b : String × List Int}
    (hb : b ∈ (Service.idsByType (db.objectsOf model)).entries) : k.get? b.1 ≠ none := by
  obtain ⟨⟨id, t⟩, he⟩ := List.exists_mem_of_ne_nil _ (Service.mem_entries_idsByType.mp hb).1
  obtain ⟨hmem, htype⟩ := List.mem_filter.mp he
  obtain ⟨st, hst, -, rfl⟩ := mem_objectsOf.mp hmem
  obtain ⟨o, hcls, -⟩ := h.object? hk hst
  rw [← of_decide_eq_true htype, hcls]
  exact Option.some_ne_none _

/-- What is loaded of the objects of other models does not change with a deleted one. -/
theorem object?_dropModel (hk : k.Storable) (hne : n ≠ model) {x : Object}
    (hx : x.model = some n) :
    (db.dropModel model).object? k id = some x ↔ db.object? k id = some x := by
  have hget : ∀ st, db.objects.get? id = some st → st.model = n →
      (db.dropModel model).objects.get? id = db.objects.get? id := fun st hst hmodel =>
    (get?_dropModel.mpr ⟨hst, hmodel ▸ hne⟩).trans hst.symm
  constructor
  · intro hobj
    obtain ⟨st, hst, -, -, -, hmodel⟩ := object?_some hk hobj
    have hold := (get?_dropModel.mp hst).1
    rwa [object?_congr (hget st hold (Option.some.inj (hmodel.symm.trans hx)))] at hobj
  · intro hobj
    obtain ⟨st, hst, -, -, -, hmodel⟩ := object?_some hk hobj
    rwa [object?_congr (hget st hst (Option.some.inj (hmodel.symm.trans hx)))]

/-- No row of any table has the id. -/
structure Lacks (db : Database) (id : Int) : Prop where
  identity : db.objects.get? id = none
  classRow : ∀ cimType cells, (id, cells) ∉ db.classTable cimType
  member : ∀ cimType label target, (id, target) ∉ db.joinTable cimType label

/-- Without an identity there are no other rows. -/
theorem lacks_of_get? (h : db.objects.get? id = none) : db.Lacks id where
  identity := h
  classRow cimType cells hmem := by
    obtain ⟨st, row, hst, -⟩ := mem_classTable.mp hmem
    exact nomatch h.symm.trans hst
  member cimType label target hmem := by
    obtain ⟨st, row, ts, hst, -⟩ := mem_joinTable.mp hmem
    exact nomatch h.symm.trans hst

end Database

namespace Service

variable {k : Catalog} {s : Service} {model : Int}

/-- Where there is no such model nothing is touched. -/
theorem delete_missing (hm : s.store.modelExists model = false) :
    delete model s = (.ok false, s) := by
  unfold delete
  rw [bind_eq (get_eq s)]
  simp only [hm, Bool.not_false, if_true]
  rfl

/-- **A stored model is deleted** without an error, and what is left is the content without it. -/
theorem delete_eq (h : s.store.Sound k) (hk : k.Storable)
    (hm : s.store.modelExists model = true) :
    ∃ s', delete model s = (.ok true, s') ∧
      s'.store = { s.store with db := s.store.db.dropModel model } := by
  have hinventory : inventory model s = (idsByType (s.store.db.objectsOf model),
      { s with calls := s.calls ++ [.findObjects model] }) := rfl
  rcases hdelete : deleteAll (idsByType (s.store.db.objectsOf model)).entries
    { s with calls := s.calls ++ [.findObjects model] } with ⟨r, s₁⟩
  obtain ⟨done, rest, hentries, hstore, ⟨rfl, rfl⟩ | ⟨-, b, hb, hunknown⟩⟩ :=
    deleteAll_cases hk (by exact h.classes) hdelete
  swap
  · exact absurd hunknown
      (h.db.known_of_mem_idsByType hk (hentries ▸ List.mem_append_right _ hb))
  rw [List.append_nil] at hentries
  have hexists : s₁.store.modelExists model = true := by
    rw [hstore]
    show (s.store.db.dropAll done).models.contains model = true
    rw [(Database.Shrinks.dropAll s.store.db done).models]
    exact hm
  refine ⟨{ s₁ with
    store := { s₁.store with db := s₁.store.db.dropModel model }
    calls := s₁.calls ++ [.deleteModel model] }, ?_, ?_⟩
  · unfold delete
    rw [bind_eq (get_eq s)]
    simp only [hm, Bool.not_true, Bool.false_eq_true, if_false]
    rw [bind_eq hinventory, bind_eq hdelete]
    show (Except.ok (s₁.store.modelExists model), _) = _
    rw [hexists]
    rfl
  · show { s₁.store with db := s₁.store.db.dropModel model } = _
    rw [hstore, ← hentries, Database.dropModel_dropAll]

/-- **Deleting a model is exact and can be repeated.** In every state that a store is brought to,
deleting a model says whether there was such a model. Afterwards there is none, no table has a row
of one of its objects, and all other objects are stored as they were. Every other model is
untouched, whatever rdf:IDs it has. Deleting the model again changes nothing, nor does deleting one
that is not stored. -/
theorem Reachable.delete_exact (hk : k.Storable) (hs : Reachable k s) (model : Int) :
    ∃ s', delete model s = (.ok (s.store.modelExists model), s') ∧
      s'.store.modelExists model = false ∧
      (∀ id st, s.store.db.objects.get? id = some st → st.model = model →
        s'.store.db.Lacks id) ∧
      (∀ id st, s'.store.db.objects.get? id = some st ↔
        s.store.db.objects.get? id = some st ∧ st.model ≠ model) ∧
      (∀ n, n ≠ model → Untouched s s' n) ∧
      delete model s' = (.ok false, s') ∧
      (s.store.modelExists model = false → s' = s) := by
  have h := hs.sound hk
  cases hm : s.store.modelExists model with
  | false =>
    have hother : ∀ id st, s.store.db.objects.get? id = some st → st.model ≠ model := by
      rintro id st hst rfl
      obtain ⟨name, hname⟩ := h.db.owner hst
      rw [Store.modelExists, SortedMap.contains_iff.mpr ⟨name, hname⟩] at hm
      exact nomatch hm
    refine ⟨s, delete_missing hm, hm, fun id st hst hmodel => absurd hmodel (hother id st hst),
      fun id st => ⟨fun hst => ⟨hst, hother id st hst⟩, And.left⟩, fun n _ => .refl s n,
      delete_missing hm, fun _ => rfl⟩
  | true =>
    obtain ⟨s', hdelete, hstore⟩ := delete_eq h hk hm
    have h' : s'.store.Sound k := by
      have := Keeps.delete (Store.invariant_sound hk) model s h
      rwa [hdelete] at this
    have hdb : s'.store.db = s.store.db.dropModel model := by rw [hstore]
    have hgone : s'.store.modelExists model = false := by
      rw [Store.modelExists, hdb]
      simp [Database.dropModel, SortedMap.contains]
    have hget : ∀ id st, s'.store.db.objects.get? id = some st ↔
        s.store.db.objects.get? id = some st ∧ st.model ≠ model := fun id st => by
      rw [hdb, Database.get?_dropModel]
    refine ⟨s', hdelete, hgone, ?lacks, hget, ?other, delete_missing hgone,
      fun hnot => nomatch hnot⟩
    case lacks =>
      intro id st hst hmodel
      refine Database.lacks_of_get? (Option.eq_none_iff_forall_ne_some.mpr fun st' hst' => ?_)
      obtain ⟨hold, hne⟩ := (hget id st').mp hst'
      rw [hst, Option.some.injEq] at hold
      exact hne (hold ▸ hmodel)
    case other =>
      intro n hne
      refine .of_contents h h' hk ?_ ?_
      · rw [Store.modelName?, hdb, Database.dropModel, SortedMap.get?_erase, if_neg hne]
        rfl
      · rw [hdb]
        exact h.db.contents_eq (hdb ▸ h'.db) hk fun id x hx => Database.object?_dropModel hk hne hx

end Service

namespace SmallGrid

/-- The grid is stored once more, as the third model. -/
def copied : Service :=
  service.perform [.saveObjects (.named "copy") [island, line, node "_n1"]]

theorem reachable_copied : copied.Reachable .standard := reachable_service.performs _

end SmallGrid

namespace Service

/-- The first grid is deleted, and its copy with the same rdf:IDs is there. -/
theorem Reachable.delete_exact_copied : ∃ s', delete 1 SmallGrid.copied = (.ok true, s') ∧
    s'.store.db.Lacks 1 ∧ Untouched SmallGrid.copied s' 3 ∧
    s'.store.findObjects 3 =
      [(5, "TopologicalIsland"), (6, "ACLineSegment"), (7, "TopologicalNode")] ∧
    delete 1 s' = (.ok false, s') := by
  obtain ⟨hm, howned, hinfos⟩ : SmallGrid.copied.store.modelExists 1 = true ∧
      (1, "TopologicalIsland") ∈ SmallGrid.copied.store.db.objectsOf 1 ∧
      SmallGrid.copied.store.findObjects 3 =
        [(5, "TopologicalIsland"), (6, "ACLineSegment"), (7, "TopologicalNode")] := by
    decide +kernel
  obtain ⟨st, hst, hmodel, -⟩ := Database.mem_objectsOf.mp howned
  obtain ⟨s', hdelete, -, hlacks, -, hother, hagain, -⟩ :=
    Reachable.delete_exact Catalog.standard_storable SmallGrid.reachable_copied 1
  rw [hm] at hdelete
  have huntouched := hother 3 (by decide)
  exact ⟨s', hdelete, hlacks 1 st hst hmodel, huntouched, huntouched.infos.trans hinfos, hagain⟩

end Service

end CimStore

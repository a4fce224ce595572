import CimStore.Proofs.Runs
import Mathlib.Data.List.Perm.Basic

/-!
# Reading a model

A stored model can always be read, whatever was done to the store before:

* `Database.Sound.load?_cases`: what is loaded of a class under an id;
* `Store.Sound.loadBatch_eq_ok`: a batch of a known class is loaded without an error, and
  `Store.loadBatch_eq`: stored ids give an object each;
* `Service.read_unlinked`, `Service.read_linked`: the graph has the objects `Database.contents`, in
  the order of their classes and ids;
* `Service.Reachable.read_ok`: in every state that is reached, that is one object per entry of
  `findObjects`.
-/

namespace CimStore

/-! ## Ids in groups -/

namespace Store

theorem distinct_eq_self {ids : List Int} (h : ids.Pairwise (· < ·)) : distinct ids = ids :=
  SortedMap.keys_ofList_of_pairwise h

/-- Ids in ascending order come out of their groups as they are. -/
theorem flatMap_distinct_batches {ids : List Int} (h : ids.Pairwise (· < ·)) :
    (batches ids).flatMap distinct = ids := by
  have hgroups : ∀ group ∈ batches ids, group.Pairwise (· < ·) := by
    rw [← flatten_batches ids, List.pairwise_flatten] at h
    exact h.1
  have hself : (batches ids).map distinct = batches ids := by
    conv_rhs => rw [← List.map_id (batches ids)]
    exact List.map_congr_left fun group hg => distinct_eq_self (hgroups group hg)
  rw [List.flatMap_def, hself, flatten_batches]

end Store

/-! ## Ids by class -/

namespace Service

/-- The ids of a class are those listed with it, in the order of the list. -/
theorem get?_idsByType (infos : List (Int × String)) (t : String) :
    (idsByType infos).get? t =
      if (infos.filter (·.2 = t)).isEmpty then none
      else some ((infos.filter (·.2 = t)).map (·.1)) := by
  have hfold : ∀ m : SortedMap String (List Int),
      (infos.foldl (fun m e => m.alter e.2 fun ids => ids.getD [] ++ [e.1]) m).get? t =
        if (infos.filter (·.2 = t)).isEmpty then m.get? t
        else some ((m.get? t).getD [] ++ (infos.filter (·.2 = t)).map (·.1)) := by
    induction infos with
    | nil => intro m; rfl
    | cons e infos ih =>
      intro m
      rw [List.foldl_cons, ih, SortedMap.alter, SortedMap.get?_insert]
      by_cases he : e.2 = t
      · rw [List.filter_cons_of_pos (by simpa using he), if_pos he]
        by_cases hrest : (infos.filter (·.2 = t)).isEmpty
        · simp [he, List.isEmpty_iff.mp hrest]
        · simp [he, hrest]
      · rw [List.filter_cons_of_neg (by simpa using he), if_neg he]
  rw [idsByType, hfold]
  rfl

/-- Each class is listed with the ids of its entries, of which there is one at least. -/
theorem mem_entries_idsByType {infos : List (Int × String)} {t : String} {ids : List Int} :
    (t, ids) ∈ (idsByType infos).entries ↔
      infos.filter (·.2 = t) ≠ [] ∧ ids = (infos.filter (·.2 = t)).map (·.1) := by
  rw [← SortedMap.get?_eq_some_iff, get?_idsByType]
  by_cases hnil : infos.filter (·.2 = t) = []
  · simp [hnil]
  · rw [if_neg (by simpa [List.isEmpty_iff] using hnil), Option.some.injEq, eq_comm,
      and_iff_right hnil]

/-- The entries of a list of ids and classes, by class. -/
def byType (infos : List (Int × String)) : List (String × Int) :=
  (idsByType infos).entries.flatMap fun b => b.2.map (b.1, ·)

theorem mem_byType {infos : List (Int × String)} {e : String × Int} :
    e ∈ byType infos ↔ (e.2, e.1) ∈ infos := by
  obtain ⟨t, id⟩ := e
  simp only [byType, List.mem_flatMap, List.mem_map, Prod.mk.injEq]
  constructor
  · rintro ⟨⟨t', ids⟩, hb, id', hid, rfl, rfl⟩
    rw [(mem_entries_idsByType.mp hb).2] at hid
    obtain ⟨e, he, rfl⟩ := List.mem_map.mp hid
    obtain ⟨hmem, heq⟩ := List.mem_filter.mp he
    exact (decide_eq_true_eq.mp heq) ▸ hmem
  · intro hmem
    have hfilter : (id, t) ∈ infos.filter (·.2 = t) := List.mem_filter.mpr ⟨hmem, by simp⟩
    exact ⟨(t, (infos.filter (·.2 = t)).map (·.1)),
      mem_entries_idsByType.mpr ⟨List.ne_nil_of_mem hfilter, rfl⟩, id,
      List.mem_map_of_mem (f := (·.1)) hfilter, rfl, rfl⟩

/-- With ascending ids, the entries come by class, and by id within a class. -/
theorem pairwise_byType {infos : List (Int × String)} (h : infos.Pairwise (·.1 < ·.1)) :
    (byType infos).Pairwise fun a b => a.1 < b.1 ∨ a.1 = b.1 ∧ a.2 < b.2 := by
  unfold byType
  rw [List.pairwise_flatMap]
  constructor
  · rintro ⟨t, ids⟩ hb
    obtain ⟨-, rfl⟩ := mem_entries_idsByType.mp hb
    refine List.pairwise_map.mpr (List.pairwise_map.mpr ?_)
    exact (h.filter _).imp fun hlt => .inr ⟨rfl, hlt⟩
  · refine (idsByType infos).ascending.imp fun {a b} hlt x hx y hy => .inl ?_
    obtain ⟨i, -, rfl⟩ := List.mem_map.mp hx
    obtain ⟨j, -, rfl⟩ := List.mem_map.mp hy
    exact hlt

end Service

/-! ## The objects of a model -/

namespace Database

variable {k : Catalog} {db : Database}

/-- The object under an id as it is loaded: as an object of the class of its identity. -/
def object? (k : Catalog) (db : Database) (id : Int) : Option Object := do
  let st ← db.objects.get? id
  let c ← k.get? st.cimType
  let loaded ← db.load? c id
  loaded.toOption

/-- The objects of a model, by class and id. -/
def contents (k : Catalog) (db : Database) (model : Int) : List Object :=
  (Service.byType (db.objectsOf model)).filterMap fun e => db.object? k e.2

/-- The object under an id only depends on what is stored there. -/
theorem object?_congr {db' : Database} {id : Int}
    (h : db'.objects.get? id = db.objects.get? id) : db'.object? k id = db.object? k id := by
  simp only [object?, load?, h]

/-- Under an id with an object there is an object to load. -/
theorem Sound.object? {id : Int} {st : StoredObject} (h : db.Sound k) (hk : k.Storable)
    (hst : db.objects.get? id = some st) :
    ∃ o : Object, k.get? st.cimType = some o.cls ∧ st.rows.get? st.cimType = some o.row ∧
      db.object? k id = some (o.reloaded id st.rdfid st.model) := by
  obtain ⟨o, hcls, hrow, hload⟩ := h.load? hk hst
  refine ⟨o, hcls, hrow, ?_⟩
  simp only [Database.object?, hst, hcls, hload, Option.bind_eq_bind, Option.bind_some]
  rfl

/-- A loaded object has the identity under which it is stored. -/
theorem object?_some (hk : k.Storable) {id : Int} {o : Object} (ho : db.object? k id = some o) :
    ∃ st, db.objects.get? id = some st ∧ o.id = some id ∧ o.cimType = st.cimType ∧
      o.rdfid = st.rdfid ∧ o.model = some st.model := by
  obtain ⟨st, hst, ho⟩ := Option.bind_eq_some_iff.mp ho
  obtain ⟨c, hc, ho⟩ := Option.bind_eq_some_iff.mp ho
  obtain ⟨loaded, hloaded, ho⟩ := Option.bind_eq_some_iff.mp ho
  obtain ⟨st', hst', hloaded⟩ := Option.bind_eq_some_iff.mp hloaded
  obtain ⟨row, -, hloaded⟩ := Option.bind_eq_some_iff.mp hloaded
  rw [hst, Option.some.injEq] at hst'
  obtain rfl := hst'
  obtain rfl := Option.some.inj hloaded
  cases hfields : row.fields c.attributes with
  | error e => simp [hfields, Except.toOption, bind, Except.bind] at ho
  | ok fields =>
    simp only [hfields, Except.toOption, bind, Except.bind, Option.some.injEq] at ho
    obtain rfl := ho
    exact ⟨st, hst, rfl, hk.name_eq hc, rfl, rfl⟩

theorem mem_objectsOf {model id : Int} {t : String} :
    (id, t) ∈ db.objectsOf model ↔
      ∃ st, db.objects.get? id = some st ∧ st.model = model ∧ st.cimType = t := by
  simp only [objectsOf, List.mem_map, List.mem_filter, decide_eq_true_eq, Prod.mk.injEq]
  constructor
  · rintro ⟨⟨i, st⟩, ⟨hmem, hmodel⟩, rfl, rfl⟩
    exact ⟨st, SortedMap.get?_eq_some_iff.mpr hmem, hmodel, rfl⟩
  · rintro ⟨st, hst, hmodel, rfl⟩
    exact ⟨(id, st), ⟨SortedMap.get?_eq_some_iff.mp hst, hmodel⟩, rfl, rfl⟩

theorem pairwise_objectsOf (db : Database) (model : Int) :
    (db.objectsOf model).Pairwise (·.1 < ·.1) :=
  List.pairwise_map.mpr (db.objects.ascending.filter _)

/-- The objects of a model are the stored ones that it owns. -/
theorem mem_contents {model : Int} {o : Object} :
    o ∈ db.contents k model ↔
      ∃ id st, db.objects.get? id = some st ∧ st.model = model ∧ db.object? k id = some o := by
  simp only [contents, List.mem_filterMap, Service.mem_byType, mem_objectsOf, Prod.exists]
  constructor
  · rintro ⟨t, id, ⟨st, hst, hmodel, -⟩, ho⟩
    exact ⟨id, st, hst, hmodel, ho⟩
  · rintro ⟨id, st, hst, hmodel, ho⟩
    exact ⟨st.cimType, id, ⟨st, hst, hmodel, rfl⟩, ho⟩

/-- The classes and ids of the objects are those listed for the model. -/
theorem Sound.map_contents (h : db.Sound k) (hk : k.Storable) (model : Int) :
    (db.contents k model).map (fun o => (o.cimType, o.id)) =
      (Service.byType (db.objectsOf model)).map fun e => (e.1, some e.2) := by
  rw [contents, List.map_filterMap]
  have hone : ∀ e ∈ Service.byType (db.objectsOf model),
      (db.object? k e.2).map (fun o => (o.cimType, o.id)) = some (e.1, some e.2) := by
    intro e he
    obtain ⟨st, hst, -, ht⟩ := mem_objectsOf.mp (Service.mem_byType.mp he)
    obtain ⟨o, hcls, -, ho⟩ := h.object? hk hst
    rw [ho, ← ht, ← hk.name_eq hcls]
    rfl
  rw [List.filterMap_congr hone, List.filterMap_eq_map']

end Database

/-! ## Loading -/

namespace Database

variable {k : Catalog} {db : Database} {cimType : String} {c : CimClass} {id : Int}

/-- The row of a class under an id, if there is one. -/
def row? (db : Database) (cimType : String) (id : Int) : Option ClassRow :=
  (db.objects.get? id).bind (·.rows.get? cimType)

theorem row?_eq_some_iff {row : ClassRow} : db.row? cimType id = some row ↔
    ∃ st, db.objects.get? id = some st ∧ st.rows.get? cimType = some row :=
  Option.bind_eq_some_iff

/-- **What is loaded of a class under an id**: if there is a row, the object that was stored with
it, without an error, and nothing if there is none. -/
theorem Sound.load?_cases (h : db.Sound k) (hk : k.Storable)
    (hc : k.get? cimType = some c) (id : Int) :
    (db.row? cimType id = none ∧ db.load? c id = none) ∨
      ∃ (o : Object) (st : StoredObject), db.objects.get? id = some st ∧
        st.rows.get? cimType = some o.row ∧ o.cls = c ∧
        db.load? c id = some (.ok (o.reloaded id st.rdfid st.model)) := by
  have hname : c.name = cimType := hk.name_eq hc
  cases hrow : db.row? cimType id with
  | none =>
    refine .inl ⟨rfl, ?_⟩
    unfold row? at hrow
    unfold Database.load?
    cases hst : db.objects.get? id with
    | none => rfl
    | some st =>
      have hown : st.rows.get? c.name = none := by simpa [hst, hname] using hrow
      simp [hown]
  | some row =>
    obtain ⟨st, hst, hown⟩ := row?_eq_some_iff.mp hrow
    obtain ⟨o, hcls, rfl⟩ := h.row hst hown
    obtain rfl : c = o.cls := Option.some.inj (hc.symm.trans hcls)
    exact .inr ⟨o, st, hst, hown, rfl, load?_eq hst (hname ▸ hown) (hk.storable hc)⟩

/-- The object of a class that is loaded under an id, if there is one. -/
def loaded? (db : Database) (c : CimClass) (id : Int) : Option Object :=
  (db.load? c id).bind Except.toOption

theorem loaded?_of_load? {o : Object} (h : db.load? c id = some (.ok o)) :
    db.loaded? c id = some o := by
  rw [loaded?, h]
  rfl

theorem loaded?_eq_none (h : db.load? c id = none) : db.loaded? c id = none := by
  rw [loaded?, h]
  rfl

/-- A loaded object is one that was stored under the id with a row of the class. -/
theorem Sound.loaded?_eq_some (h : db.Sound k) (hk : k.Storable) (hc : k.get? cimType = some c)
    {y : Object} (hy : db.loaded? c id = some y) :
    ∃ (o : Object) (st : StoredObject), db.objects.get? id = some st ∧
      st.rows.get? cimType = some o.row ∧ o.cls = c ∧ y = o.reloaded id st.rdfid st.model := by
  rcases h.load?_cases hk hc id with ⟨-, hload⟩ | ⟨o, st, hst, hrow, hcls, hload⟩
  · rw [loaded?_eq_none hload] at hy
    cases hy
  · rw [loaded?_of_load? hload, Option.some.injEq] at hy
    exact ⟨o, st, hst, hrow, hcls, hy.symm⟩

end Database

namespace Store

variable {k : Catalog} {s : Store} {cimType : String} {c : CimClass}

/-- A batch of a known class is loaded without an error, whatever the ids are. -/
theorem Sound.loadBatch_eq_ok (h : s.Sound k) (hk : k.Storable) (hc : k.get? cimType = some c)
    (ids : List Int) : s.loadBatch cimType ids =
      .ok (((batches ids).flatMap distinct).filterMap (s.db.loaded? c)) := by
  have hfind : s.classes.find cimType = .ok c := Catalog.find_eq_ok_iff.mpr (h.classes ▸ hc)
  rw [loadBatch, hfind]
  show (((batches ids).flatMap distinct).filterMap (s.db.load? c)).mapM id = _
  generalize (batches ids).flatMap distinct = ids
  induction ids with
  | nil => rfl
  | cons id ids ih =>
    rcases h.db.load?_cases hk hc id with ⟨-, hload⟩ | ⟨o, st, -, -, -, hload⟩
    · rw [List.filterMap_cons_none hload, ih,
        List.filterMap_cons_none (Database.loaded?_eq_none hload)]
    · have hsome := Database.loaded?_of_load? hload
      rw [List.filterMap_cons_some hload, List.mapM_cons, ih, List.filterMap_cons_some hsome]
      rfl

/-- Stored ids of one class are loaded with an object for each. -/
theorem loadBatch_eq (h : s.Sound k) (hk : k.Storable) {ids : List Int}
    (hasc : ids.Pairwise (· < ·)) (hne : ids ≠ [])
    (hids : ∀ id ∈ ids, ∃ st, s.db.objects.get? id = some st ∧ st.cimType = cimType) :
    s.loadBatch cimType ids = .ok (ids.filterMap (s.db.object? k)) := by
  -- The class is known because objects of it are stored.
  obtain ⟨c, hc⟩ : ∃ c, k.get? cimType = some c := by
    obtain ⟨id, hid⟩ := List.exists_mem_of_ne_nil ids hne
    obtain ⟨st, hst, rfl⟩ := hids id hid
    obtain ⟨o, hcls, -⟩ := h.db.object? hk hst
    exact ⟨o.cls, hcls⟩
  rw [h.loadBatch_eq_ok hk hc, flatMap_distinct_batches hasc]
  refine congrArg Except.ok (List.filterMap_congr fun id hid => ?_)
  obtain ⟨st, hst, ht⟩ := hids id hid
  simp only [Database.object?, hst, ht, hc, Option.bind_eq_bind, Option.bind_some]
  rfl

end Store

namespace Graph

theorem objects_insertAll (g : Graph) (os : List Object) :
    (g.insertAll os).objects = g.objects ++ os := by
  induction os generalizing g with
  | nil => exact (List.append_nil _).symm
  | cons o os ih =>
    show ((g.insert o).insertAll os).objects = _
    rw [ih, insert, List.append_assoc]
    rfl

theorem insertAll_append (g : Graph) (os ps : List Object) :
    g.insertAll (os ++ ps) = (g.insertAll os).insertAll ps :=
  List.foldl_append ..

end Graph

namespace Service

variable {k : Catalog} {s : Service}

/-- Batches of stored ids are loaded one after the other. -/
theorem loadInto_eq (h : s.store.Sound k) (hk : k.Storable) {bs : List (String × List Int)}
    (hbs : ∀ b ∈ bs, b.2.Pairwise (· < ·) ∧ b.2 ≠ [] ∧
      ∀ id ∈ b.2, ∃ st, s.store.db.objects.get? id = some st ∧ st.cimType = b.1) (g : Graph) :
    ∃ s', loadInto g bs s =
      (.ok (g.insertAll (bs.flatMap fun b => b.2.filterMap (s.store.db.object? k))), s') ∧
        s'.store = s.store := by
  induction bs generalizing g s with
  | nil => exact ⟨s, rfl, rfl⟩
  | cons b bs ih =>
    obtain ⟨hasc, hne, hids⟩ := hbs b (List.mem_cons_self ..)
    have hload := Store.loadBatch_eq h hk hasc hne hids
    -- The call is noted; the store stays.
    have hbatch : loadBatch b.1 b.2 s = (.ok (b.2.filterMap (s.store.db.object? k)),
        { s with calls := s.calls ++ [.loadBatch b.1 b.2] }) := by
      rw [← hload]
      rfl
    obtain ⟨s', hrest, hstore⟩ := ih (s := { s with calls := s.calls ++ [.loadBatch b.1 b.2] })
      h (fun b' hb' => hbs b' (List.mem_cons_of_mem _ hb'))
      (g.insertAll (b.2.filterMap (s.store.db.object? k)))
    refine ⟨s', ?_, hstore⟩
    rw [List.flatMap_cons, Graph.insertAll_append]
    exact (bind_eq hbatch).trans hrest

/-- The unlinked graph of a model. -/
def unlinked (k : Catalog) (s : Service) (model : Int) : Graph :=
  ({ model := some model } : Graph).insertAll (s.store.db.contents k model)

@[simp]
theorem objects_unlinked (k : Catalog) (s : Service) (model : Int) :
    (unlinked k s model).objects = s.store.db.contents k model :=
  (Graph.objects_insertAll ..).trans (List.nil_append _)

private theorem inventory_eq (model : Int) (s : Service) :
    inventory model s = (idsByType (s.store.db.objectsOf model),
      { s with calls := s.calls ++ [.findObjects model] }) := rfl

private theorem loadInto_inventory (h : s.store.Sound k) (hk : k.Storable) (model : Int) :
    ∃ s', loadInto { model := some model } (idsByType (s.store.db.objectsOf model)).entries
        { s with calls := s.calls ++ [.findObjects model] } = (.ok (unlinked k s model), s') ∧
      s'.store = s.store := by
  have hgraph : unlinked k s model = ({ model := some model } : Graph).insertAll
      ((idsByType (s.store.db.objectsOf model)).entries.flatMap
        fun b => b.2.filterMap (s.store.db.object? k)) := by
    rw [unlinked, Database.contents, byType, List.filterMap_flatMap]
    simp only [List.filterMap_map]
    rfl
  rw [hgraph]
  refine loadInto_eq (s := { s with calls := s.calls ++ [.findObjects model] }) h hk ?_ _
  -- Each batch lists ids of the model, ascending, of objects of the batch's class.
  rintro ⟨t, ids⟩ hb
  obtain ⟨hne, rfl⟩ := mem_entries_idsByType.mp hb
  refine ⟨List.pairwise_map.mpr ((Database.pairwise_objectsOf ..).filter _), by simpa using hne,
    fun id hid => ?_⟩
  obtain ⟨e, he, rfl⟩ := List.mem_map.mp hid
  obtain ⟨hmem, ht⟩ := List.mem_filter.mp he
  obtain ⟨st, hst, -, hst'⟩ := Database.mem_objectsOf.mp hmem
  exact ⟨st, hst, hst'.trans (decide_eq_true_eq.mp ht)⟩

/-- **A stored model is read without an error**: unlinked, its objects are those that are loaded. -/
theorem read_unlinked (h : s.store.Sound k) (hk : k.Storable) {model : Int}
    (hm : s.store.modelExists model = true) :
    ∃ s', read model false s = (.ok (unlinked k s model), s') ∧ s'.store = s.store := by
  obtain ⟨s', hload, hstore⟩ := loadInto_inventory h hk model
  refine ⟨s', ?_, hstore⟩
  unfold read
  rw [bind_eq (get_eq s)]
  simp only [hm, Bool.not_true, Bool.false_eq_true, if_false]
  rw [bind_eq (inventory_eq model s), bind_eq hload]
  rfl

/-- Linked, they are those that linking makes of them. -/
theorem read_linked (h : s.store.Sound k) (hk : k.Storable) {model : Int}
    (hm : s.store.modelExists model = true) :
    ∃ s', read model true s = (.ok { (unlinked k s model).linkAll.1 with
      report := (unlinked k s model).linkAll.2 }, s') ∧ s'.store = s.store := by
  obtain ⟨s', hload, hstore⟩ := loadInto_inventory h hk model
  refine ⟨{ s' with
    diagnostics := s'.diagnostics ++ (unlinked k s model).linkAll.2.diagnostics }, ?_, hstore⟩
  unfold read
  rw [bind_eq (get_eq s)]
  simp only [hm, Bool.not_true, Bool.false_eq_true, if_false]
  rw [bind_eq (inventory_eq model s), bind_eq hload]
  exact bind_eq (link_eq (unlinked k s model) s')

end Service

/-! ## What a graph holds -/

/-- `a` stands in front of `b` in a graph: by class, and by id within a class. -/
def Object.Precedes (a b : Object) : Prop :=
  a.cimType < b.cimType ∨ a.cimType = b.cimType ∧ ∃ i j, a.id = some i ∧ b.id = some j ∧ i < j

/-- The order only looks at classes and ids. -/
private theorem pairwise_precedes {os : List Object} : os.Pairwise Object.Precedes ↔
    (os.map fun o => (o.cimType, o.id)).Pairwise
      fun a b => a.1 < b.1 ∨ a.1 = b.1 ∧ ∃ i j, a.2 = some i ∧ b.2 = some j ∧ i < j := by
  rw [List.pairwise_map]
  rfl

theorem Object.not_precedes_self (a : Object) : ¬a.Precedes a := by
  rintro (hlt | ⟨-, i, j, hi, hj, hlt⟩)
  · exact Std.lt_irrefl hlt
  · rw [hi, Option.some.injEq] at hj
    omega

namespace Database

variable {k : Catalog} {db : Database}

theorem Sound.pairwise_contents (h : db.Sound k) (hk : k.Storable) (model : Int) :
    (db.contents k model).Pairwise Object.Precedes := by
  rw [pairwise_precedes, h.map_contents hk, List.pairwise_map]
  refine (Service.pairwise_byType (db.pairwise_objectsOf model)).imp fun hlt => ?_
  exact hlt.imp_right fun ⟨ht, hid⟩ => ⟨ht, _, _, rfl, rfl, hid⟩

/-- The listed entries of a model, each once. -/
theorem Sound.perm_contents (h : db.Sound k) (hk : k.Storable) (model : Int) :
    ((db.contents k model).map fun o => (o.id, o.cimType)).Perm
      ((db.objectsOf model).map fun e => (some e.1, e.2)) := by
  have hswap : ((db.contents k model).map fun o => (o.id, o.cimType)) =
      (Service.byType (db.objectsOf model)).map fun e => (some e.2, e.1) := by
    have := congrArg (List.map Prod.swap) (h.map_contents hk model)
    rwa [List.map_map, List.map_map] at this
  have hinfos : (Service.byType (db.objectsOf model)).Perm
      ((db.objectsOf model).map Prod.swap) := by
    rw [List.perm_ext_iff_of_nodup]
    · intro e
      rw [Service.mem_byType]
      exact ⟨fun he => List.mem_map_of_mem (f := Prod.swap) he, fun he => by
        obtain ⟨e', he', rfl⟩ := List.mem_map.mp he
        exact he'⟩
    · refine (Service.pairwise_byType (db.pairwise_objectsOf model)).imp ?_
      rintro a _ hlt rfl
      rcases hlt with hlt | ⟨-, hlt⟩
      · exact Std.lt_irrefl hlt
      · omega
    · refine (List.pairwise_map.mpr ((db.pairwise_objectsOf model).imp ?_))
      rintro a b hlt heq
      have := congrArg (·.2) heq
      simp only [Prod.snd_swap] at this
      omega
  rw [hswap]
  have := hinfos.map fun e => (some e.2, e.1)
  rwa [List.map_map] at this

/-- No two objects of a model have one rdf:ID. -/
theorem Sound.nodup_contents (h : db.Sound k) (hk : k.Storable) (model : Int) :
    ((db.contents k model).map (·.rdfid)).Nodup := by
  refine List.pairwise_map.mpr ((h.pairwise_contents hk model).imp_of_mem ?_)
  intro a b ha hb hprec hrdfid
  obtain ⟨i, sa, hsa, hma, hai⟩ := mem_contents.mp ha
  obtain ⟨j, sb, hsb, hmb, hbj⟩ := mem_contents.mp hb
  obtain ⟨_, hsa', -, -, hra, -⟩ := object?_some hk hai
  obtain ⟨_, hsb', -, -, hrb, -⟩ := object?_some hk hbj
  rw [hsa, Option.some.injEq] at hsa'
  rw [hsb, Option.some.injEq] at hsb'
  subst hsa' hsb'
  -- One rdf:ID in one model is one id, and that has one object.
  obtain rfl := h.unique hsa hsb (hma.trans hmb.symm) (hra ▸ hrb ▸ hrdfid)
  rw [hai, Option.some.injEq] at hbj
  exact Object.not_precedes_self a (hbj ▸ hprec)

end Database

/-! ## Linking keeps what was loaded -/

theorem linkObjects_fst (links : SortedMap String Link) (os : List Object) :
    (linkObjects links os).1 = os.map fun o => (o.linkAll links).1 := by
  induction os with
  | nil => rfl
  | cons o os ih => rw [List.map_cons, ← ih]; rfl

/-- Linking changes no identity: what is said of class, ids and model stays true. -/
theorem Graph.map_linkAll {α : Type} (g : Graph)
    (f : CimClass → Option Int → String → Option Int → α) :
    g.linkAll.1.objects.map (fun o => f o.cls o.id o.rdfid o.model) =
      g.objects.map fun o => f o.cls o.id o.rdfid o.model := by
  show (linkObjects g.links g.objects).1.map _ = _
  rw [linkObjects_fst, List.map_map]
  rfl

namespace Service

variable {k : Catalog} {s : Service}

/-- **A stored model can always be read.** In every state that a store is brought to, reading a
model gives no error, and the graph has one object per entry of `findObjects`, with its id and
class; no two of them have one rdf:ID, and they come by class, and by id within a class. -/
theorem Reachable.read_ok (hk : k.Storable) (hs : Reachable k s) {model : Int}
    (hm : s.store.modelExists model = true) (linked : Bool) :
    ∃ g s', read model linked s = (.ok g, s') ∧ s'.store = s.store ∧
      (g.objects.map fun o => (o.id, o.cimType)).Perm
        ((s.store.findObjects model).map fun e => (some e.1, e.2)) ∧
      (g.objects.map (·.rdfid)).Nodup ∧ g.objects.Pairwise Object.Precedes := by
  have h := hs.sound hk
  have hperm := h.db.perm_contents hk model
  have hnodup := h.db.nodup_contents hk model
  have hprec := h.db.pairwise_contents hk model
  cases linked with
  | false =>
    obtain ⟨s', hread, hstore⟩ := read_unlinked h hk hm
    refine ⟨_, s', hread, hstore, ?_⟩
    rw [objects_unlinked]
    exact ⟨hperm, hnodup, hprec⟩
  | true =>
    obtain ⟨s', hread, hstore⟩ := read_linked h hk hm
    refine ⟨_, s', hread, hstore, ?_⟩
    rw [← objects_unlinked] at hperm hnodup hprec
    have hids := (unlinked k s model).map_linkAll fun c id _ _ => (id, c.name)
    have hrdfids := (unlinked k s model).map_linkAll fun _ _ rdfid _ => rdfid
    have hpairs := (unlinked k s model).map_linkAll fun c id _ _ => (c.name, id)
    refine ⟨hids ▸ hperm, hrdfids ▸ hnodup, ?_⟩
    rw [pairwise_precedes] at hprec ⊢
    exact hpairs ▸ hprec

/-- The grid is read with its three objects, after calls that failed. -/
theorem Reachable.read_ok_smallGrid : SmallGrid.service.store.modelExists 1 = true ∧
    ∃ g s', read 1 true SmallGrid.service = (.ok g, s') ∧ g.objects.length = 3 := by
  have hm := SmallGrid.modelExists_service
  obtain ⟨g, s', hread, -, hperm, -⟩ :=
    Reachable.read_ok Catalog.standard_storable SmallGrid.reachable_service hm true
  refine ⟨hm, g, s', hread, ?_⟩
  have hlength := hperm.length_eq
  rw [List.length_map, List.length_map, SmallGrid.findObjects_service] at hlength
  exact hlength

end Service

end CimStore

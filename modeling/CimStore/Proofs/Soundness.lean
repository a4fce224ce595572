import CimStore.Proofs.Rows
import CimStore.Store

/-!
# Sound stores

A store is sound if whatever it lists it can also load:

* `Database.Sound` says of every stored object that it has the row of its own class, that each of
  its rows is the row of some object of a known class, that its model is stored, and that no other
  object of the model has its rdf:ID;
* `Database.save_cases` says all that saving one object can do, and `Database.Sound.stores` that
  this keeps a database sound;
* `Store.Sound` says it of the content and of the content to go back to, and every operation of a
  store keeps it.
-/

namespace CimStore

namespace Database

/-- All that is stored can be loaded with the classes of the catalog. -/
structure Sound (k : Catalog) (db : Database) : Prop where
  /-- Every object has the row of its own class. -/
  own : ∀ {id st}, db.objects.get? id = some st → ∃ row, st.rows.get? st.cimType = some row
  /-- Every row is that of an object of its class. -/
  row : ∀ {id st name row}, db.objects.get? id = some st → st.rows.get? name = some row →
    ∃ o : Object, k.get? name = some o.cls ∧ row = o.row
  /-- The model of every object is stored. -/
  owner : ∀ {id st}, db.objects.get? id = some st → ∃ name, db.models.get? st.model = some name
  /-- No two objects of a model have one rdf:ID. -/
  unique : ∀ {i j a b}, db.objects.get? i = some a → db.objects.get? j = some b →
    a.model = b.model → a.rdfid = b.rdfid → i = j
  /-- New ids are larger than all that are in use. -/
  object_le : ∀ {id st}, db.objects.get? id = some st → id ≤ db.lastObject
  model_le : ∀ {id name}, db.models.get? id = some name → id ≤ db.lastModel

theorem Sound.empty (k : Catalog) : Sound k {} where
  own h := nomatch h
  row h := nomatch h
  owner h := nomatch h
  unique h := nomatch h
  object_le h := nomatch h
  model_le h := nomatch h

variable {k : Catalog} {db db' : Database}

/-! ## Saving an object -/

/-- What is stored of an object over what was there before. The class of the identity stays. -/
def overwrite (old : Option StoredObject) (o : Object) (model : Int) : StoredObject :=
  match old with
  | some st => { st with rdfid := o.rdfid, model := model, rows := st.rows.insert o.cls.name o.row }
  | none => ⟨o.rdfid, o.cls.name, model, SortedMap.empty.insert o.cls.name o.row⟩

@[simp]
theorem overwrite_rdfid (old : Option StoredObject) (o : Object) (model : Int) :
    (overwrite old o model).rdfid = o.rdfid := by
  cases old <;> rfl

@[simp]
theorem overwrite_model (old : Option StoredObject) (o : Object) (model : Int) :
    (overwrite old o model).model = model := by
  cases old <;> rfl

theorem overwrite_cimType (old : Option StoredObject) (o : Object) (model : Int) :
    (overwrite old o model).cimType = (old.map StoredObject.cimType).getD o.cls.name := by
  cases old <;> rfl

/-- The row of the class is the object's; rows of other classes stay. -/
theorem get?_rows_overwrite (old : Option StoredObject) (o : Object) (model : Int) (name : String) :
    (overwrite old o model).rows.get? name =
      if o.cls.name = name then some o.row else old.bind (·.rows.get? name) := by
  cases old with
  | none => simp [overwrite, SortedMap.get?_insert]
  | some st => simp [overwrite, SortedMap.get?_insert]

/-- `db'` is `db` after the object has been stored under `id`. -/
structure Stores (db : Database) (o : Object) (model id : Int) (db' : Database) : Prop where
  model_eq : o.model = some model
  id_eq : o.id = some id ∨ o.id = none ∧ id = db.lastObject + 1
  /-- No other object of the model has the rdf:ID. -/
  free : ∀ {j b}, db.objects.get? j = some b → b.model = model → b.rdfid = o.rdfid → j = id
  owner : ∃ name, db.models.get? model = some name
  objects : db'.objects = db.objects.insert id (overwrite (db.objects.get? id) o model)
  models : db'.models = db.models
  lastObject : db'.lastObject = max db.lastObject id
  lastModel : db'.lastModel = db.lastModel

theorem Stores.get?_objects {o : Object} {model id : Int} (h : db.Stores o model id db') (j : Int) :
    db'.objects.get? j =
      if id = j then some (overwrite (db.objects.get? id) o model) else db.objects.get? j := by
  rw [h.objects, SortedMap.get?_insert]

theorem isTaken_eq_false {id model : Int} {rdfid : String} :
    db.isTaken id model rdfid = false ↔
      ∀ j b, db.objects.get? j = some b → b.model = model → b.rdfid = rdfid → j = id := by
  simp only [isTaken, List.any_eq_false, SortedMap.get?_eq_some_iff, Prod.forall]
  refine forall_congr' fun j => forall_congr' fun b => imp_congr_right fun _ => ?_
  by_cases h : j = id <;> simp [h]

/-- The identity that is stored over what was there before. -/
private def identity (old : Option StoredObject) (cimType rdfid : String) (model : Int) :
    StoredObject :=
  match old with
  | some st => { st with rdfid := rdfid, model := model }
  | none => ⟨rdfid, cimType, model, SortedMap.empty⟩

/-- An identity needs an id, a free rdf:ID and a stored model. -/
private theorem putIdentity_ok {id? : Option Int} {cimType rdfid : String} {model id : Int}
    (h : db.putIdentity id? cimType rdfid model = .ok (id, db')) :
    (id? = some id ∨ id? = none ∧ id = db.lastObject + 1) ∧ db.isTaken id model rdfid = false ∧
      db.models.contains model = true ∧
      db' = { db with
        objects := db.objects.insert id (identity (db.objects.get? id) cimType rdfid model)
        lastObject := max db.lastObject id } := by
  have htail : ∀ i, (if db.isTaken i model rdfid then .error .duplicateIdentity
      else if !db.models.contains model then .error .missingOwner
      else .ok (i, { db with
        objects := db.objects.insert i (identity (db.objects.get? i) cimType rdfid model)
        lastObject := max db.lastObject i }) : Except StoreFault (Int × Database)) = .ok (id, db') →
      i = id ∧ db.isTaken id model rdfid = false ∧ db.models.contains model = true ∧
        db' = { db with
          objects := db.objects.insert id (identity (db.objects.get? id) cimType rdfid model)
          lastObject := max db.lastObject id } := by
    intro i hi
    split at hi
    · cases hi
    · split at hi
      · cases hi
      · cases hi
        simp_all
  cases id? with
  | some i =>
    obtain ⟨rfl, hrest⟩ := htail i h
    exact ⟨.inl rfl, hrest⟩
  | none =>
    unfold putIdentity nextId at h
    by_cases hmax : db.lastObject = maxInteger
    · simp only [hmax, if_true] at h
      cases h
    · simp only [hmax, if_false] at h
      obtain ⟨hid, hrest⟩ := htail (db.lastObject + 1) h
      exact ⟨.inr ⟨rfl, hid.symm⟩, hrest⟩

/-- **Saving stores the object or changes nothing.** -/
theorem save_cases (db : Database) (c : CimClass) (o : Object) :
    (∃ e, db.save c o = (.error e, db)) ∨
      ∃ model id db', db.save c o = (.ok id, db') ∧ o.cls = c ∧ db.Stores o model id db' := by
  unfold save
  cases hmodel : o.model with
  | none => exact .inl ⟨_, rfl⟩
  | some model =>
    by_cases hc : o.cls = c
    swap
    · exact .inl ⟨.wrongClass c.name o.cimType, by simp [hc]⟩
    simp only [hc, ne_eq, not_true_eq_false, if_false, ClassRow.ofObject_eq]
    cases hput : db.putIdentity o.id c.name o.rdfid model with
    | error fault => exact .inl ⟨_, rfl⟩
    | ok out =>
      obtain ⟨id, db₁⟩ := out
      obtain ⟨hid, htaken, howner, rfl⟩ := putIdentity_ok hput
      refine .inr ⟨model, id, _, rfl, trivial, hmodel, hid, fun {j b} =>
        isTaken_eq_false.mp htaken j b, SortedMap.contains_iff.mp howner, ?_, ?_, ?_, ?_⟩
      · refine SortedMap.ext_get? fun j => ?_
        simp only [putRow, SortedMap.get?_insert_self]
        simp only [SortedMap.get?_insert]
        by_cases hj : id = j
        · subst hj
          cases db.objects.get? id <;> simp [overwrite, identity, hc]
        · simp [hj]
      all_goals simp [putRow]

/-- **Saving an object of a known class keeps a database sound.** -/
theorem Sound.stores {o : Object} {model id : Int} (h : db.Sound k)
    (hs : db.Stores o model id db') (ho : k.get? o.cls.name = some o.cls) : db'.Sound k := by
  have hget := hs.get?_objects
  refine ⟨?own, ?row, ?owner, ?unique, ?object_le, ?model_le⟩
  case own =>
    intro j st hst
    rw [hget] at hst
    split at hst
    · cases hst
      rw [overwrite_cimType]
      simp only [get?_rows_overwrite]
      cases hold : db.objects.get? id with
      | none => exact ⟨o.row, if_pos rfl⟩
      | some old =>
        obtain ⟨row, hrow⟩ := h.own hold
        split
        · exact ⟨o.row, rfl⟩
        · exact ⟨row, hrow⟩
    · exact h.own hst
  case row =>
    intro j st name row hst hrow
    rw [hget] at hst
    split at hst
    · cases hst
      rw [get?_rows_overwrite] at hrow
      split at hrow
      · rename_i hname
        cases hrow
        exact ⟨o, hname ▸ ho, rfl⟩
      · obtain ⟨old, hold, hrow⟩ := Option.bind_eq_some_iff.mp hrow
        exact h.row hold hrow
    · exact h.row hst hrow
  case owner =>
    intro j st hst
    rw [hget] at hst
    rw [hs.models]
    split at hst
    · cases hst
      rw [overwrite_model]
      exact hs.owner
    · exact h.owner hst
  case unique =>
    intro i j a b ha hb hmodel hrdfid
    rw [hget] at ha hb
    split at ha
    · split at hb
      · rename_i hi hj
        exact hi.symm.trans hj
      · rename_i hi _
        cases ha
        rw [overwrite_model] at hmodel
        rw [overwrite_rdfid] at hrdfid
        exact hi.symm.trans (hs.free hb hmodel.symm hrdfid.symm).symm
    · split at hb
      · rename_i _ hj
        cases hb
        rw [overwrite_model] at hmodel
        rw [overwrite_rdfid] at hrdfid
        exact (hs.free ha hmodel hrdfid).trans hj
      · exact h.unique ha hb hmodel hrdfid
  case object_le =>
    intro j st hst
    rw [hget] at hst
    rw [hs.lastObject]
    split at hst
    · omega
    · have := h.object_le hst
      omega
  case model_le =>
    intro j name hname
    rw [hs.models] at hname
    rw [hs.lastModel]
    exact h.model_le hname

/-! ## Models and deletions -/

/-- The database with a name stored for a model. -/
def nameModel (db : Database) (model : Int) (name : Option String) : Database :=
  { db with models := db.models.insert model name, lastModel := max db.lastModel model }

@[simp]
theorem models_nameModel (db : Database) (model : Int) (name : Option String) :
    (db.nameModel model name).models = db.models.insert model name := rfl

@[simp]
theorem lastModel_nameModel (db : Database) (model : Int) (name : Option String) :
    (db.nameModel model name).lastModel = max db.lastModel model := rfl

@[simp]
theorem objects_nameModel (db : Database) (model : Int) (name : Option String) :
    (db.nameModel model name).objects = db.objects := rfl

@[simp]
theorem lastObject_nameModel (db : Database) (model : Int) (name : Option String) :
    (db.nameModel model name).lastObject = db.lastObject := rfl

/-- A model is stored under its id, or under a new one. -/
theorem putModel_ok {id? : Option Int} {name : Option String} {id : Int}
    (h : db.putModel id? name = .ok (id, db')) :
    (id? = some id ∨ id? = none ∧ id = db.lastModel + 1) ∧ db' = db.nameModel id name := by
  cases id? with
  | some i =>
    cases h
    exact ⟨.inl rfl, rfl⟩
  | none =>
    unfold putModel nextId at h
    by_cases hmax : db.lastModel = maxInteger
    · simp only [hmax, if_true] at h
      cases h
    · simp only [hmax, if_false] at h
      cases h
      exact ⟨.inr ⟨rfl, rfl⟩, rfl⟩

theorem Sound.nameModel (h : db.Sound k) (model : Int) (name : Option String) :
    (db.nameModel model name).Sound k := by
  refine ⟨h.own, h.row, ?_, h.unique, h.object_le, ?_⟩
  · intro i st hst
    obtain ⟨name', hname'⟩ := h.owner hst
    rw [models_nameModel, SortedMap.get?_insert]
    split
    · exact ⟨_, rfl⟩
    · exact ⟨name', hname'⟩
  · intro i name' hname'
    rw [models_nameModel, SortedMap.get?_insert] at hname'
    rw [lastModel_nameModel]
    split at hname'
    · omega
    · have := h.model_le hname'
      omega

/-- Only objects of other models stay, as they are. -/
theorem get?_dropModel {model id : Int} {st : StoredObject} :
    (db.dropModel model).objects.get? id = some st ↔
      db.objects.get? id = some st ∧ st.model ≠ model := by
  simp only [dropModel, SortedMap.get?_filter, Option.filter_eq_some_iff, decide_eq_true_eq]

theorem Sound.dropModel (h : db.Sound k) (model : Int) : (db.dropModel model).Sound k := by
  refine ⟨?_, ?_, ?_, ?_, ?_, ?_⟩
  · intro i st hst
    exact h.own (get?_dropModel.mp hst).1
  · intro i st name row hst hrow
    exact h.row (get?_dropModel.mp hst).1 hrow
  · intro i st hst
    obtain ⟨hget, hne⟩ := get?_dropModel.mp hst
    obtain ⟨name, hname⟩ := h.owner hget
    exact ⟨name, by simp only [Database.dropModel, SortedMap.get?_erase, if_neg hne, hname]⟩
  · intro i j a b ha hb
    exact h.unique (get?_dropModel.mp ha).1 (get?_dropModel.mp hb).1
  · intro i st hst
    exact h.object_le (get?_dropModel.mp hst).1
  · intro i name hname
    simp only [Database.dropModel, SortedMap.get?_erase] at hname
    split at hname
    · cases hname
    · exact h.model_le hname

/-- What a deletion by class and id leaves of one object: all, if the id is not among them; the
rows of other classes, if the object is of another class; else nothing. -/
theorem get?_drop (db : Database) (cimType : String) (ids : List Int) (id : Int) :
    (db.drop cimType ids).objects.get? id = (db.objects.get? id).bind fun st =>
      if !ids.contains id then some st
      else if st.cimType = cimType then none
      else some { st with rows := st.rows.erase cimType } :=
  SortedMap.get?_filterMap ..

/-- Ids can be deleted in groups. -/
theorem drop_append (db : Database) (cimType : String) (ids ids' : List Int) :
    db.drop cimType (ids ++ ids') = (db.drop cimType ids).drop cimType ids' := by
  have hobjects : (db.drop cimType (ids ++ ids')).objects =
      ((db.drop cimType ids).drop cimType ids').objects := by
    refine SortedMap.ext_get? fun id => ?_
    simp only [get?_drop, Option.bind_assoc]
    refine congrArg (Option.bind _) (funext fun st => ?_)
    by_cases hid : id ∈ ids
    · by_cases hclass : st.cimType = cimType
      · simp [hid, hclass]
      · have hagain : (st.rows.erase cimType).erase cimType = st.rows.erase cimType :=
          SortedMap.ext_get? fun t => by simp only [SortedMap.get?_erase]; split <;> rfl
        by_cases hid' : id ∈ ids' <;> simp [hid, hid', hclass, hagain]
    · simp [hid]
  exact congrArg (fun objects => { db with objects }) hobjects

theorem foldl_drop (db : Database) (cimType : String) (groups : List (List Int)) :
    groups.foldl (fun db group => db.drop cimType group) db = db.drop cimType groups.flatten := by
  induction groups generalizing db with
  | nil =>
    have hnone : (db.drop cimType []).objects = db.objects :=
      SortedMap.ext_get? fun id => by simp [get?_drop]
    exact congrArg (fun objects => { db with objects }) hnone.symm
  | cons group groups ih => rw [List.foldl_cons, ih, List.flatten_cons, drop_append]

/-- An object that a deletion leaves was there before. Its identity is the same, and so is the row
of its own class. -/
theorem get?_drop_some {cimType : String} {ids : List Int} {id : Int} {st : StoredObject}
    (h : (db.drop cimType ids).objects.get? id = some st) :
    ∃ old, db.objects.get? id = some old ∧ st.rdfid = old.rdfid ∧ st.cimType = old.cimType ∧
      st.model = old.model ∧ st.rows.get? st.cimType = old.rows.get? old.cimType ∧
      ∀ name row, st.rows.get? name = some row → old.rows.get? name = some row := by
  rw [get?_drop] at h
  obtain ⟨old, hold, hst⟩ := Option.bind_eq_some_iff.mp h
  refine ⟨old, hold, ?_⟩
  split at hst
  · cases hst
    exact ⟨rfl, rfl, rfl, rfl, fun _ _ h => h⟩
  · split at hst
    · cases hst
    · rename_i hne
      cases hst
      refine ⟨rfl, rfl, rfl, by rw [SortedMap.get?_erase, if_neg hne], fun name row hrow => ?_⟩
      rw [SortedMap.get?_erase] at hrow
      split at hrow
      · cases hrow
      · exact hrow

theorem Sound.drop (h : db.Sound k) (cimType : String) (ids : List Int) :
    (db.drop cimType ids).Sound k := by
  refine ⟨?_, ?_, ?_, ?_, ?_, ?_⟩
  · intro i st hst
    obtain ⟨old, hold, -, -, -, hown, -⟩ := get?_drop_some hst
    rw [hown]
    exact h.own hold
  · intro i st name row hst hrow
    obtain ⟨old, hold, -, -, -, -, hrows⟩ := get?_drop_some hst
    exact h.row hold (hrows name row hrow)
  · intro i st hst
    obtain ⟨old, hold, -, -, hmodel, -⟩ := get?_drop_some hst
    rw [hmodel]
    exact h.owner hold
  · intro i j a b ha hb hmodel hrdfid
    obtain ⟨olda, holda, hra, -, hma, -⟩ := get?_drop_some ha
    obtain ⟨oldb, holdb, hrb, -, hmb, -⟩ := get?_drop_some hb
    exact h.unique holda holdb (hma ▸ hmb ▸ hmodel) (hra ▸ hrb ▸ hrdfid)
  · intro i st hst
    obtain ⟨old, hold, -⟩ := get?_drop_some hst
    exact h.object_le hold
  · exact h.model_le

/-! ## Loading -/

/-- **What is stored can be loaded.** -/
theorem Sound.load? {id : Int} {st : StoredObject} (h : db.Sound k) (hk : k.Storable)
    (hst : db.objects.get? id = some st) :
    ∃ o : Object, k.get? st.cimType = some o.cls ∧ st.rows.get? st.cimType = some o.row ∧
      db.load? o.cls id = some (.ok (o.reloaded id st.rdfid st.model)) := by
  obtain ⟨row, hrow⟩ := h.own hst
  obtain ⟨o, hcls, rfl⟩ := h.row hst hrow
  exact ⟨o, hcls, hrow, load?_eq hst (hk.name_eq hcls ▸ hrow) (hk.storable hcls)⟩

end Database

namespace Store

/-- The store knows the classes of the catalog, and both what it holds and what it can go back to
is sound. -/
structure Sound (k : Catalog) (s : Store) : Prop where
  classes : s.classes = k
  db : s.db.Sound k
  begun : ∀ db, s.begun = some db → db.Sound k

theorem Sound.empty (k : Catalog) : Sound k { classes := k } :=
  ⟨rfl, .empty k, fun _ h => nomatch h⟩

variable {k : Catalog} {s s' : Store}

/-- The content to go back to, or else the content. -/
theorem Sound.restart (h : s.Sound k) : (s.begun.getD s.db).Sound k := by
  cases hb : s.begun with
  | none => exact h.db
  | some db => exact h.begun db hb

theorem begin_ok (h : s.begin = .ok s') : s.begun = none ∧ s' = { s with begun := some s.db } := by
  unfold Store.begin at h
  split at h
  · exact nomatch h
  · rename_i hbegun
    cases h
    exact ⟨hbegun, rfl⟩

theorem commit_ok (h : s.commit = .ok s') : s' = { s with begun := none } := by
  unfold Store.commit at h
  split at h
  · cases h
    rfl
  · exact nomatch h

theorem rollBack_ok (h : s.rollBack = .ok s') :
    ∃ db, s.begun = some db ∧ s' = { s with db, begun := none } := by
  unfold Store.rollBack at h
  split at h
  · rename_i db hbegun
    cases h
    exact ⟨db, hbegun, rfl⟩
  · exact nomatch h

theorem flatten_batches (ids : List Int) : (batches ids).flatten = ids := by
  induction ids using batches.induct with
  | case1 => rw [batches]; rfl
  | case2 id ids ih =>
    rw [batches, List.flatten_cons, ih, List.cons_append, List.take_append_drop]

theorem deleteBatch_eq {cimType : String} {c : CimClass} (h : s.classes.find cimType = .ok c)
    (ids : List Int) :
    s.deleteBatch cimType ids = .ok { s with db := s.db.drop c.name ids } := by
  rw [deleteBatch, h, ← flatten_batches ids, ← Database.foldl_drop, flatten_batches]
  rfl

theorem deleteBatch_ok {cimType : String} {ids : List Int} (h : s.deleteBatch cimType ids = .ok s') :
    ∃ c, s.classes.find cimType = .ok c ∧ s' = { s with db := s.db.drop c.name ids } := by
  cases hfind : s.classes.find cimType with
  | error e =>
    unfold Store.deleteBatch at h
    rw [hfind] at h
    exact nomatch h
  | ok c =>
    rw [deleteBatch_eq hfind] at h
    cases h
    exact ⟨c, rfl, rfl⟩

theorem Sound.begin (h : s.Sound k) (hs : s.begin = .ok s') : s'.Sound k := by
  obtain ⟨-, rfl⟩ := begin_ok hs
  exact ⟨h.classes, h.db, fun db hdb => Option.some.inj hdb ▸ h.db⟩

theorem Sound.commit (h : s.Sound k) (hs : s.commit = .ok s') : s'.Sound k := by
  obtain rfl := commit_ok hs
  exact ⟨h.classes, h.db, fun _ hdb => nomatch hdb⟩

theorem Sound.rollBack (h : s.Sound k) (hs : s.rollBack = .ok s') : s'.Sound k := by
  obtain ⟨db, hdb, rfl⟩ := rollBack_ok hs
  exact ⟨h.classes, h.begun db hdb, fun _ h => nomatch h⟩

theorem Sound.reopen (h : s.Sound k) : (s.reopen k).Sound k :=
  ⟨rfl, h.restart, fun _ h => nomatch h⟩

/-- A model is stored under its id, or under a new one; or there is no new one left, and an open
transaction is rolled back. -/
theorem saveModel_cases (s : Store) (m : Model) :
    (∃ id, s.saveModel m = (.ok id, { s with db := s.db.nameModel id m.name }) ∧
      (m.id = some id ∨ m.id = none ∧ id = s.db.lastModel + 1)) ∨
    ∃ e, s.saveModel m = (.error e, { s with db := s.begun.getD s.db, begun := none }) ∧
      m.id = none := by
  unfold saveModel
  cases hput : s.db.putModel m.id m.name with
  | ok out =>
    obtain ⟨id, db⟩ := out
    obtain ⟨hid, rfl⟩ := Database.putModel_ok hput
    exact .inl ⟨id, rfl, hid⟩
  | error fault =>
    refine .inr ⟨_, rfl, ?_⟩
    cases hid : m.id with
    | none => rfl
    | some id =>
      rw [hid] at hput
      exact nomatch hput

theorem Sound.saveModel (h : s.Sound k) (m : Model) : (s.saveModel m).2.Sound k := by
  rcases s.saveModel_cases m with ⟨id, hsave, -⟩ | ⟨e, hsave, -⟩
  · rw [hsave]
    exact ⟨h.classes, h.db.nameModel id m.name, h.begun⟩
  · rw [hsave]
    exact ⟨h.classes, h.restart, fun _ h => nomatch h⟩

theorem Sound.deleteModel (h : s.Sound k) (model : Int) : (s.deleteModel model).2.Sound k :=
  ⟨h.classes, h.db.dropModel model, h.begun⟩

/-- A batch saves one object after the other. -/
theorem saveAll_sound {c : CimClass} {db : Database} (h : db.Sound k)
    (hc : k.get? c.name = some c) (os : List Object) : (saveAll c db os).db.Sound k := by
  induction os generalizing db with
  | nil => exact h
  | cons o os ih =>
    unfold saveAll
    rcases db.save_cases c o with ⟨e, hsave⟩ | ⟨model, id, db', hsave, rfl, hs⟩
    · simp only [hsave]
      exact h
    · simp only [hsave]
      exact ih (h.stores hs hc)

theorem Sound.saveBatch (h : s.Sound k) (hk : k.Storable) (cimType : String) (os : List Object) :
    (s.saveBatch cimType os).2.Sound k := by
  unfold Store.saveBatch
  split
  · exact h
  · rename_i c hfind
    rw [h.classes] at hfind
    have hc := Catalog.find_eq_ok_iff.mp hfind
    rw [← hk.name_eq hc] at hc
    exact ⟨h.classes, saveAll_sound h.db hc os, h.begun⟩

theorem Sound.deleteBatch (h : s.Sound k) {cimType : String} {ids : List Int}
    (hs : s.deleteBatch cimType ids = .ok s') : s'.Sound k := by
  obtain ⟨c, -, rfl⟩ := deleteBatch_ok hs
  exact ⟨h.classes, h.db.drop c.name ids, h.begun⟩

end Store

end CimStore

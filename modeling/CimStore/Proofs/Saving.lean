import CimStore.Proofs.Grouping
import CimStore.Proofs.Runs
import Mathlib.Data.List.Forall2
import Mathlib.Data.List.Perm.Basic

/-!
# Saving objects one after the other

* `Database.StoresEach`: objects of known classes are stored in order, each in its model and under
  its id or under a new one; `Database.StoresAll` if they have one model;
* `Service.saveBatches_spec`: saving batches stores the objects up to the first that fails, and
  hands all of them back;
* `StoresEach.get?_of_not_mem`, `StoresEach.get?_of_mem`: what is stored afterwards under an id
  that no saved object has, and under one that a saved object has;
* `StoresAll.nodup_ids`: no id is given twice.
-/

namespace CimStore

/-! ## Stored in order -/

/-- What saving into a model makes of an object: it is given to the model, and it gets an id if it
has none. -/
def Object.SavedAs (model : Int) (o o' : Object) : Prop :=
  ∃ id, o' = { o with id := some id, model := some model } ∧ (o.id = some id ∨ o.id = none)

/-- What stands in the second of two related lists is related to something in the first. -/
theorem exists_of_forall₂ {α β : Type} {R : α → β → Prop} {as : List α} {bs : List β}
    (h : List.Forall₂ R as bs) {b : β} (hb : b ∈ bs) : ∃ a ∈ as, R a b := by
  induction h with
  | nil => exact absurd hb List.not_mem_nil
  | cons hab _ ih =>
    rcases List.mem_cons.mp hb with rfl | hb
    · exact ⟨_, List.mem_cons_self .., hab⟩
    · obtain ⟨a, ha, hab⟩ := ih hb
      exact ⟨a, List.mem_cons_of_mem _ ha, hab⟩

namespace Database

/-- `db'` is `db` after the objects `os` have been stored in order, each in its model; `os'` are the
objects with their ids. -/
inductive StoresEach (k : Catalog) : Database → List Object → List Object → Database → Prop
  | nil {db} : StoresEach k db [] [] db
  | cons {db db₁ db' o os os' id model} : db.Stores o model id db₁ →
      k.get? o.cls.name = some o.cls → StoresEach k db₁ os os' db' →
      StoresEach k db (o :: os) ({ o with id := some id } :: os') db'

namespace StoresEach

variable {k : Catalog} {db db' : Database} {os os' : List Object}

theorem models (h : StoresEach k db os os' db') :
    db'.models = db.models ∧ db'.lastModel = db.lastModel := by
  induction h with
  | nil => exact ⟨rfl, rfl⟩
  | cons hs _ _ ih => exact ⟨ih.1.trans hs.models, ih.2.trans hs.lastModel⟩

/-- Each object comes back with an id and is else as it was. -/
theorem savedAs (h : StoresEach k db os os' db') :
    List.Forall₂ (fun o o' => ∃ model, o.model = some model ∧ o.SavedAs model o') os os' := by
  induction h with
  | nil => exact .nil
  | cons hs _ _ ih =>
    exact .cons ⟨_, hs.model_eq, _, by rw [← hs.model_eq], hs.id_eq.imp_right And.left⟩ ih

theorem lastObject_le (h : StoresEach k db os os' db') : db.lastObject ≤ db'.lastObject := by
  induction h with
  | nil => exact Int.le_refl _
  | cons hs _ _ ih =>
    have := hs.lastObject
    omega

/-- **The frame**: what is stored under other ids stays as it is. -/
theorem get?_of_not_mem (h : StoresEach k db os os' db') {id : Int}
    (hid : ∀ o ∈ os', o.id ≠ some id) : db'.objects.get? id = db.objects.get? id := by
  induction h with
  | nil => rfl
  | cons hs _ _ ih =>
    rw [ih fun o ho => hid o (List.mem_cons_of_mem _ ho), hs.get?_objects, if_neg]
    rintro rfl
    exact hid _ (List.mem_cons_self ..) rfl

/-- The objects in front of one were stored before it, and the others after them. -/
theorem split {as' bs' : List Object} (h : StoresEach k db os (as' ++ bs') db') :
    ∃ as bs db₁, os = as ++ bs ∧ StoresEach k db as as' db₁ ∧ StoresEach k db₁ bs bs' db' := by
  induction as' generalizing db os with
  | nil => exact ⟨[], os, db, rfl, .nil, h⟩
  | cons a' as' ih =>
    rw [List.cons_append] at h
    cases h with
    | cons hs ho hrest =>
      obtain ⟨as, bs, db₁, rfl, has, hbs⟩ := ih hrest
      exact ⟨_ :: as, bs, db₁, rfl, .cons hs ho has, hbs⟩

/-- **The last object saved under an id** is the one that is stored under it. -/
theorem get?_last {as' bs' : List Object} {o' : Object}
    (h : StoresEach k db os (as' ++ o' :: bs') db') (hlast : ∀ b ∈ bs', b.id ≠ o'.id) :
    ∃ id model old, o'.id = some id ∧ o'.model = some model ∧
      db'.objects.get? id = some (overwrite old o' model) := by
  obtain ⟨as, bs, db₁, -, -, hbs⟩ := h.split
  cases hbs with
  | cons hs ho hrest =>
    rename_i o bs id model
    refine ⟨id, model, db₁.objects.get? id, rfl, hs.model_eq, ?_⟩
    rw [hrest.get?_of_not_mem hlast, hs.get?_objects, if_pos rfl]
    rfl

/-- An id is one that the object had, or it is larger than all that had been given. -/
theorem id_cases (h : StoresEach k db os os' db') {o' : Object} (ho' : o' ∈ os') :
    ∃ id, o'.id = some id ∧ id ≤ db'.lastObject ∧
      ((∃ o ∈ os, o.id = some id) ∨ db.lastObject < id) := by
  induction h with
  | nil => exact absurd ho' List.not_mem_nil
  | cons hs ho hrest ih =>
    rename_i db db₁ db' o os os' id _
    rcases List.mem_cons.mp ho' with rfl | ho'
    · have hlast := hs.lastObject
      have hle := hrest.lastObject_le
      refine ⟨id, rfl, by omega, ?_⟩
      rcases hs.id_eq with hid | ⟨-, hid⟩
      · exact .inl ⟨o, List.mem_cons_self .., hid⟩
      · exact .inr (by omega)
    · obtain ⟨i, hi, hle, hcase⟩ := ih ho'
      refine ⟨i, hi, hle, hcase.imp ?_ ?_⟩
      · rintro ⟨a, ha, hai⟩
        exact ⟨a, List.mem_cons_of_mem _ ha, hai⟩
      · have := hs.lastObject
        omega

/-- What is stored under the id of a saved object: its identity and its row. The id is that of an
object of its class that was saved, or it is new. -/
theorem get?_of_mem (h : StoresEach k db os os' db') (hnodup : (os'.map (·.id)).Nodup)
    {o' : Object} (ho' : o' ∈ os') :
    ∃ id model st, o'.id = some id ∧ o'.model = some model ∧
      k.get? o'.cls.name = some o'.cls ∧
      db'.objects.get? id = some st ∧ st.rdfid = o'.rdfid ∧ st.model = model ∧
      (∀ name, st.rows.get? name = if o'.cls.name = name then some o'.row
        else (db.objects.get? id).bind (·.rows.get? name)) ∧
      st.cimType = ((db.objects.get? id).map (·.cimType)).getD o'.cls.name ∧
      ((∃ o ∈ os, o.id = some id ∧ o.cls = o'.cls) ∨ db.lastObject < id) := by
  induction h with
  | nil => exact absurd ho' List.not_mem_nil
  | cons hs ho hrest ih =>
    rename_i db db₁ db' o os os' id model
    rw [List.map_cons, List.nodup_cons] at hnodup
    rcases List.mem_cons.mp ho' with rfl | ho'
    · refine ⟨id, model, overwrite (db.objects.get? id) o model, rfl, hs.model_eq, ho, ?_,
        overwrite_rdfid .., overwrite_model .., get?_rows_overwrite (db.objects.get? id) o model,
        overwrite_cimType .., ?_⟩
      · rw [hrest.get?_of_not_mem, hs.get?_objects, if_pos rfl]
        intro a ha heq
        exact hnodup.1 (heq ▸ List.mem_map_of_mem (f := (·.id)) ha)
      · rcases hs.id_eq with hid | ⟨-, hid⟩
        · exact .inl ⟨o, List.mem_cons_self .., hid, rfl⟩
        · exact .inr (by omega)
    · obtain ⟨i, m, st, hi, hmodel, hcls, hst, hrdfid, hm, hrows, htype, hcase⟩ := ih hnodup.2 ho'
      have hother : db₁.objects.get? i = db.objects.get? i := by
        rw [hs.get?_objects, if_neg]
        rintro rfl
        exact hnodup.1 (hi ▸ List.mem_map_of_mem (f := (·.id)) ho')
      rw [hother] at hrows htype
      refine ⟨i, m, st, hi, hmodel, hcls, hst, hrdfid, hm, hrows, htype, hcase.imp ?_ ?_⟩
      · exact fun ⟨a, ha, hai⟩ => ⟨a, List.mem_cons_of_mem _ ha, hai⟩
      · have := hs.lastObject
        omega

end StoresEach

/-- `db'` is `db` after the objects `os` of the model have been stored in order; `os'` are the
objects with their ids. -/
inductive StoresAll (k : Catalog) (model : Int) :
    Database → List Object → List Object → Database → Prop
  | nil {db} : StoresAll k model db [] [] db
  | cons {db db₁ db' o os os' id} : db.Stores o model id db₁ → k.get? o.cls.name = some o.cls →
      StoresAll k model db₁ os os' db' →
      StoresAll k model db (o :: os) ({ o with id := some id } :: os') db'

theorem StoresEach.all {k : Catalog} {model : Int} {db db' : Database} {os os' : List Object}
    (h : StoresEach k db os os' db') (hmodel : ∀ o ∈ os, o.model = some model) :
    StoresAll k model db os os' db' := by
  induction h with
  | nil => exact .nil
  | cons hs ho _ ih =>
    obtain rfl := Option.some.inj
      (hs.model_eq.symm.trans (hmodel _ (List.mem_cons_self ..)))
    exact .cons hs ho (ih fun o ho => hmodel o (List.mem_cons_of_mem _ ho))

namespace StoresAll

variable {k : Catalog} {model : Int} {db db₁ db' : Database} {os os' ps ps' : List Object}

theorem each (h : StoresAll k model db os os' db') : StoresEach k db os os' db' := by
  induction h with
  | nil => exact .nil
  | cons hs ho _ ih => exact .cons hs ho ih

theorem append (h : StoresAll k model db os os' db₁) (h' : StoresAll k model db₁ ps ps' db') :
    StoresAll k model db (os ++ ps) (os' ++ ps') db' := by
  induction h with
  | nil => exact h'
  | cons hs ho _ ih => exact .cons hs ho (ih h')

theorem models (h : StoresAll k model db os os' db') :
    db'.models = db.models ∧ db'.lastModel = db.lastModel :=
  h.each.models

theorem lastObject_le (h : StoresAll k model db os os' db') : db.lastObject ≤ db'.lastObject :=
  h.each.lastObject_le

/-- Each object comes back with an id and is else as it was. -/
theorem savedAs (h : StoresAll k model db os os' db') :
    List.Forall₂ (Object.SavedAs model) os os' := by
  induction h with
  | nil => exact .nil
  | cons hs _ _ ih =>
    exact .cons ⟨_, by rw [← hs.model_eq], hs.id_eq.imp_right And.left⟩ ih

theorem exists_savedAs (h : StoresAll k model db os os' db') {o' : Object} (ho' : o' ∈ os') :
    ∃ o ∈ os, o.SavedAs model o' :=
  exists_of_forall₂ h.savedAs ho'

/-- **The frame**: what is stored under other ids stays as it is. -/
theorem get?_of_not_mem (h : StoresAll k model db os os' db') {id : Int}
    (hid : ∀ o ∈ os', o.id ≠ some id) : db'.objects.get? id = db.objects.get? id :=
  h.each.get?_of_not_mem hid

/-- Under the id of a saved object there is an object of the model. -/
theorem exists_model (h : StoresAll k model db os os' db') {id : Int}
    (hid : some id ∈ os'.map (·.id)) : ∃ st, db'.objects.get? id = some st ∧ st.model = model := by
  induction h with
  | nil => exact absurd hid List.not_mem_nil
  | cons hs _ hrest ih =>
    rename_i os' i _
    -- The last object that was saved under the id counts.
    by_cases hlater : some id ∈ os'.map (·.id)
    · exact ih hlater
    · obtain rfl : id = i := by
        rcases List.mem_cons.mp hid with heq | hmem
        · exact Option.some.inj heq
        · exact absurd hmem hlater
      have hlast : ∀ a ∈ os', a.id ≠ some id := fun a ha heq =>
        hlater (heq ▸ List.mem_map_of_mem (f := (·.id)) ha)
      exact ⟨_, (hrest.get?_of_not_mem hlast).trans ((hs.get?_objects id).trans (if_pos rfl)),
        overwrite_model ..⟩

/-- An id is one that the object had, or it is larger than all that had been given. -/
theorem id_cases (h : StoresAll k model db os os' db') {o' : Object} (ho' : o' ∈ os') :
    ∃ id, o'.id = some id ∧ id ≤ db'.lastObject ∧
      ((∃ o ∈ os, o.id = some id) ∨ db.lastObject < id) :=
  h.each.id_cases ho'

/-- No object is saved under an id of another stored object. -/
theorem id_ne_of_get? (h : StoresAll k model db os os' db')
    (hle : ∀ {id st}, db.objects.get? id = some st → id ≤ db.lastObject) {id : Int}
    {st : StoredObject} (hst : db.objects.get? id = some st) (hid : ∀ o ∈ os, o.id ≠ some id) :
    ∀ o' ∈ os', o'.id ≠ some id := by
  intro o' ho' heq
  obtain ⟨i, hi, -, hcase⟩ := h.id_cases ho'
  obtain rfl : i = id := Option.some.inj (hi.symm.trans heq)
  rcases hcase with ⟨o, ho, hoid⟩ | hnew
  · exact hid o ho hoid
  · have hold := hle hst
    omega

/-- **No id is given twice**, if no two objects came with one id and all ids that they came with had
been given before. -/
theorem nodup_ids (h : StoresAll k model db os os' db') (hnodup : (os.filterMap (·.id)).Nodup)
    (hle : ∀ o ∈ os, ∀ id, o.id = some id → id ≤ db.lastObject) : (os'.map (·.id)).Nodup := by
  induction h with
  | nil => exact List.nodup_nil
  | cons hs ho hrest ih =>
    rename_i db db₁ db' o os os' id
    have hlast := hs.lastObject
    have hle' : ∀ a ∈ os, ∀ i, a.id = some i → i ≤ db.lastObject := fun a ha =>
      hle a (List.mem_cons_of_mem _ ha)
    have htail : (os.filterMap (·.id)).Nodup := by
      refine hnodup.sublist ?_
      exact (List.sublist_cons_self o os).filterMap _
    rw [List.map_cons, List.nodup_cons]
    refine ⟨?_, ih htail fun a ha i hi => by have := hle' a ha i hi; omega⟩
    -- The rest came with other ids, or is given larger ones.
    intro hmem
    obtain ⟨a', ha', heq⟩ := List.mem_map.mp hmem
    obtain ⟨i, hi, -, hcase⟩ := hrest.id_cases ha'
    obtain rfl : i = id := by simpa [hi] using heq
    rcases hcase with ⟨a, ha, hai⟩ | hlt
    · rcases hs.id_eq with hid | ⟨-, hid⟩
      · rw [List.filterMap_cons_some hid, List.nodup_cons] at hnodup
        exact hnodup.1 (List.mem_filterMap.mpr ⟨a, ha, hai⟩)
      · have := hle' a ha i hai
        omega
    · omega

/-- **A saved object is stored as it is**, with its class, its identity and its row, if under its id
there was no object of another class. -/
theorem stored_of_mem (h : StoresAll k model db os os' db') (hnodup : (os'.map (·.id)).Nodup)
    (hle : ∀ {id st}, db.objects.get? id = some st → id ≤ db.lastObject)
    (hclass : ∀ o ∈ os, ∀ id, o.id = some id → ∀ st, db.objects.get? id = some st →
      st.cimType = o.cimType) {o' : Object} (ho' : o' ∈ os') :
    ∃ id st, o'.id = some id ∧ o'.model = some model ∧ k.get? o'.cimType = some o'.cls ∧
      db'.objects.get? id = some st ∧ st.rdfid = o'.rdfid ∧ st.model = model ∧
      st.rows.get? o'.cimType = some o'.row ∧ st.cimType = o'.cimType ∧
      ((∃ o ∈ os, o.id = some id ∧ o.cls = o'.cls) ∨ db.lastObject < id) := by
  obtain ⟨id, n, st, hid, hmodel, hcls, hst, hrdfid, rfl, hrows, htype, hcase⟩ :=
    h.each.get?_of_mem hnodup ho'
  have hm : st.model = model := by
    obtain ⟨o, -, _, rfl, -⟩ := h.exists_savedAs ho'
    exact (Option.some.inj hmodel).symm
  have hrow : st.rows.get? o'.cimType = some o'.row := (hrows _).trans (if_pos rfl)
  refine ⟨id, st, hid, hm ▸ hmodel, hcls, hst, hrdfid, hm, hrow, ?_, hcase⟩
  rw [htype]
  cases hget : db.objects.get? id with
  | none => rfl
  | some st₀ =>
    rcases hcase with ⟨o, ho, hoid, hocls⟩ | hnew
    · have hold := hclass o ho id hoid st₀ hget
      rw [Object.cimType, hocls] at hold
      exact hold
    · have hold := hle hget
      omega

end StoresAll

end Database

/-! ## Batches -/

namespace Store

variable {k : Catalog} {model : Int}

/-- A batch stores its objects up to the first that cannot be saved. -/
theorem saveAll_spec {c : CimClass} (hc : k.get? c.name = some c) (db : Database)
    (os : List Object) :
    ∃ pre pre' post, os = pre ++ post ∧ (saveAll c db os).objects = pre' ++ post ∧
      (∀ o ∈ pre, o.cls = c) ∧ Database.StoresEach k db pre pre' (saveAll c db os).db ∧
      ((saveAll c db os).result = .ok () → post = []) := by
  induction os generalizing db with
  | nil => exact ⟨[], [], [], rfl, rfl, by simp, .nil, fun _ => rfl⟩
  | cons o os ih =>
    unfold saveAll
    rcases db.save_cases c o with ⟨e, hsave⟩ | ⟨m, id, db', hsave, hcls, hs⟩
    · simp only [hsave]
      exact ⟨[], [], o :: os, rfl, rfl, by simp, .nil, fun h => by cases h⟩
    · simp only [hsave]
      obtain ⟨pre, pre', post, rfl, hobjects, hclasses, heach, hok⟩ := ih db'
      exact ⟨o :: pre, { o with id := some id } :: pre', post, rfl,
        congrArg ({ o with id := some id } :: ·) hobjects,
        List.forall_mem_cons.mpr ⟨hcls, hclasses⟩, .cons hs (hcls ▸ hc) heach, hok⟩

/-- **Saving a batch** stores its objects up to the first that cannot be saved. Those that are
stored are of the class of the batch, and all are handed back. -/
theorem saveBatch_each (hk : k.Storable) {s : Store} (hs : s.classes = k) (cimType : String)
    (os : List Object) :
    ∃ pre pre' post r db', os = pre ++ post ∧
      s.saveBatch cimType os = ((pre' ++ post, r), { s with db := db' }) ∧
      (∀ o ∈ pre, o.cimType = cimType) ∧ Database.StoresEach k s.db pre pre' db' ∧
      (r = .ok () → post = []) := by
  cases hfind : s.classes.find cimType with
  | error e =>
    refine ⟨[], [], os, .error e, s.db, rfl, ?_, by simp, .nil, fun h => nomatch h⟩
    unfold saveBatch
    rw [hfind]
    rfl
  | ok c =>
    have hget := Catalog.find_eq_ok_iff.mp (hs ▸ hfind)
    have hname := hk.name_eq hget
    obtain ⟨pre, pre', post, hos, hobjects, hclasses, heach, hok⟩ :=
      saveAll_spec (hname.symm ▸ hget) s.db os
    refine ⟨pre, pre', post, (saveAll c s.db os).result, _, hos, ?_, fun o ho => ?_, heach, hok⟩
    · unfold saveBatch
      rw [hfind, ← hobjects]
    · rw [Object.cimType, hclasses o ho, hname]

theorem saveBatch_spec (hk : k.Storable) {s : Store} (hs : s.classes = k) (cimType : String)
    {os : List Object} (hmodel : ∀ o ∈ os, o.model = some model) :
    ∃ pre pre' post r db', os = pre ++ post ∧
      s.saveBatch cimType os = ((pre' ++ post, r), { s with db := db' }) ∧
      Database.StoresAll k model s.db pre pre' db' ∧ (r = .ok () → post = []) := by
  obtain ⟨pre, pre', post, r, db', hos, hbatch, -, heach, hok⟩ := saveBatch_each hk hs cimType os
  exact ⟨pre, pre', post, r, db', hos, hbatch,
    heach.all fun o ho => hmodel o (hos ▸ List.mem_append_left _ ho), hok⟩

end Store

namespace Service

variable {k : Catalog} {model : Int}

/-- A call that is noted and then run on the store. -/
theorem note_onStore_eq {α β : Type} {c : Call} {f : StateM Store α} {g : α → StateM Service β}
    {s : Service} {a : α} {st : Store} (h : f s.store = (a, st)) :
    (note c >>= fun _ => onStore f >>= g) s =
      g a { s with store := st, calls := s.calls ++ [c] } := by
  show g (f s.store).1 { s with store := (f s.store).2, calls := s.calls ++ [c] } = _
  rw [h]

theorem map_giveTo_giveTo (os : List Object) :
    (os.map (·.giveTo model)).map (·.giveTo model) = os.map (·.giveTo model) := by
  rw [List.map_map]
  rfl

/-- **Saving batches** stores the objects in order, up to the first that cannot be saved. All
objects are handed back; of those that were not saved some have been given to the model. -/
theorem saveBatches_spec (hk : k.Storable) {s s' : Service} (hs : s.store.classes = k)
    {bs : List Batch} {os' : List Object} {r : Except Error Unit}
    (h : saveBatches model bs s = ((os', r), s')) :
    ∃ pre pre' post post', bs.flatMap (·.objects) = pre ++ post ∧ os' = pre' ++ post' ∧
      Database.StoresAll k model s.store.db (pre.map (·.giveTo model)) pre' s'.store.db ∧
      post'.map (·.giveTo model) = post.map (·.giveTo model) ∧ (r = .ok () → post = []) ∧
      s'.store = { s.store with db := s'.store.db } := by
  induction bs generalizing s os' with
  | nil =>
    cases h
    exact ⟨[], [], [], [], rfl, rfl, .nil, rfl, fun _ => rfl, rfl⟩
  | cons b bs ih =>
    rw [saveBatches_cons] at h
    have hmodel : ∀ o ∈ b.objects.map (·.giveTo model), o.model = some model := by
      intro o ho
      obtain ⟨a, -, rfl⟩ := List.mem_map.mp ho
      rfl
    obtain ⟨pre, pre', post, r₁, db₁, hos, hbatch, hall, hok⟩ :=
      Store.saveBatch_spec hk hs b.cimType hmodel
    obtain ⟨os₁, os₂, hb, rfl, rfl⟩ := List.map_eq_append_iff.mp hos
    rw [note_onStore_eq hbatch] at h
    rw [List.flatMap_cons, hb, List.append_assoc]
    cases r₁ with
    | error e =>
      cases h
      refine ⟨os₁, pre', os₂ ++ bs.flatMap (·.objects),
        os₂.map (·.giveTo model) ++ bs.flatMap (·.objects), rfl, List.append_assoc .., hall, ?_,
        (fun h => nomatch h), rfl⟩
      rw [List.map_append, List.map_append, map_giveTo_giveTo]
    | ok _ =>
      obtain rfl : os₂ = [] := by simpa using hok rfl
      rcases hrest : saveBatches model bs { s with
        store := { s.store with db := db₁ }
        calls := s.calls ++ [.saveBatch b.cimType
          ((b.objects.map (·.giveTo model)).map (·.rdfid))] } with ⟨⟨rest, r₂⟩, s₂⟩
      change (saveBatches model bs >>= _) _ = _ at h
      rw [bind_eq hrest] at h
      cases h
      obtain ⟨pre₂, pre₂', post₂, post₂', hbs, hos₂, hall₂, hpost, hok₂, hstore⟩ :=
        ih (by exact hs) hrest
      refine ⟨os₁ ++ pre₂, pre' ++ pre₂', post₂, post₂', ?_, ?_, ?_, hpost, hok₂, hstore⟩
      · rw [hbs, List.nil_append, List.append_assoc]
      · rw [hos₂, List.map_nil, List.append_nil, List.append_assoc]
      · rw [List.map_append]
        exact hall.append hall₂

/-- A model is stored under its id, or under a new one; then it has this id. -/
theorem persist_ok {m m' : Model} {s s' : Service} {id : Int}
    (h : persist m s = ((m', .ok id), s')) :
    (m.id = some id ∨ m.id = none ∧ id = s.store.db.lastModel + 1) ∧ m' = m.setId id ∧
      s'.store = { s.store with db := s.store.db.nameModel id m.name } := by
  rw [persist_eq] at h
  rcases s.store.saveModel_cases m with ⟨i, hsave, hid⟩ | ⟨e, hsave, -⟩
  · rw [note_onStore_eq hsave] at h
    cases h
    exact ⟨hid, rfl, rfl⟩
  · rw [note_onStore_eq hsave] at h
    exact nomatch h

/-- Storing a model can only fail if it needs a new id. -/
theorem persist_error {m m' : Model} {s s' : Service} {e : Error}
    (h : persist m s = ((m', .error e), s')) : m' = m ∧ m.id = none := by
  rw [persist_eq] at h
  rcases s.store.saveModel_cases m with ⟨i, hsave, -⟩ | ⟨e, hsave, hid⟩
  · rw [note_onStore_eq hsave] at h
    exact nomatch h
  · rw [note_onStore_eq hsave] at h
    cases h
    exact ⟨rfl, hid⟩

end Service

end CimStore

import CimStore.Proofs.Saving

/-!
# Batches that fail

A batch is saved object by object, and the first object that cannot be saved ends it:

* `Database.Refuses` says which objects a database does not take, and with which error; saving fails
  for just these, and then changes nothing (`Database.Sound.save_error_iff`);
* `Store.saveAll_error`: what a failed batch leaves is what the objects in front of the refused one
  would have left as a batch of their own;
* `Service.Reachable.saveBatch_error` puts the two together.
-/

namespace CimStore

namespace Database

/-- The object is stored under its id, with its identity and its row. -/
def Holds (db : Database) (o : Object) : Prop :=
  ∃ id model st, o.id = some id ∧ o.model = some model ∧ db.objects.get? id = some st ∧
    st.rdfid = o.rdfid ∧ st.model = model ∧ st.rows.get? o.cls.name = some o.row

/-- The last object saved under an id is held. -/
theorem StoresEach.holds {k : Catalog} {db db' : Database} {os as' bs' : List Object} {o' : Object}
    (h : StoresEach k db os (as' ++ o' :: bs') db') (hlast : ∀ b ∈ bs', b.id ≠ o'.id) :
    db'.Holds o' := by
  obtain ⟨id, model, old, hid, hmodel, hst⟩ := h.get?_last hlast
  exact ⟨id, model, _, hid, hmodel, hst, overwrite_rdfid .., overwrite_model ..,
    (get?_rows_overwrite ..).trans (if_pos rfl)⟩

/-! ## Objects that are refused -/

/-- Another object of the model is stored with the rdf:ID of the object. -/
def HasOther (db : Database) (o : Object) (model : Int) : Prop :=
  ∃ j st, db.objects.get? j = some st ∧ st.model = model ∧ st.rdfid = o.rdfid ∧ o.id ≠ some j

/-- The object needs a new id, and there is none left. -/
def Exhausted (db : Database) (o : Object) : Prop := o.id = none ∧ db.lastObject = maxInteger

instance (db : Database) (o : Object) : Decidable (db.Exhausted o) :=
  inferInstanceAs (Decidable (_ ∧ _))

/-- The object is not saved as one of the class, and this is the error. -/
inductive Refuses (db : Database) (c : CimClass) (o : Object) : Error → Prop
  /-- It has no model. -/
  | unowned : o.model = none → Refuses db c o (.missingModel o.rdfid)
  /-- It is of another class. -/
  | otherClass {model} : o.model = some model → o.cls ≠ c →
      Refuses db c o (.wrongClass c.name o.cimType)
  | exhausted {model} : o.model = some model → o.cls = c → db.Exhausted o →
      Refuses db c o (.storage .idsExhausted)
  /-- Its rdf:ID is taken. -/
  | taken {model} : o.model = some model → o.cls = c → ¬db.Exhausted o → db.HasOther o model →
      Refuses db c o (.storage .duplicateIdentity)
  /-- Its model is not stored. -/
  | ownerless {model} : o.model = some model → o.cls = c → ¬db.Exhausted o →
      ¬db.HasOther o model → db.models.get? model = none →
      Refuses db c o (.storage .missingOwner)

variable {k : Catalog} {db : Database} {c : CimClass} {o : Object} {e : Error}

/-- A new id is no id of a stored object. -/
theorem Sound.isTaken_iff (h : db.Sound k) {model : Int} :
    db.isTaken (o.id.getD (db.lastObject + 1)) model o.rdfid = true ↔ db.HasOther o model := by
  rw [← not_iff_not, Bool.not_eq_true, isTaken_eq_false]
  unfold HasOther
  push Not
  refine forall_congr' fun j => forall_congr' fun st => ?_
  constructor
  · intro hfree hst hmodel hrdfid
    have hj := hfree hst hmodel hrdfid
    cases hid : o.id with
    | some id => rw [hj, hid, Option.getD_some]
    | none =>
      have hle := h.object_le hst
      rw [hid, Option.getD_none] at hj
      omega
  · intro hfree hst hmodel hrdfid
    rw [hfree hst hmodel hrdfid, Option.getD_some]

/-- The checks of an identity, in order: the id, the rdf:ID, the model. -/
theorem exists_putIdentity_eq (db : Database) (o : Object) (cimType : String) (model : Int) :
    ∃ stored, db.putIdentity o.id cimType o.rdfid model =
      if db.Exhausted o then .error .idsExhausted
      else if db.isTaken (o.id.getD (db.lastObject + 1)) model o.rdfid then
        .error .duplicateIdentity
      else if !db.models.contains model then .error .missingOwner
      else .ok (o.id.getD (db.lastObject + 1), stored) := by
  cases hid : o.id with
  | some id =>
    have hroom : ¬db.Exhausted o := fun h => nomatch hid.symm.trans h.1
    exact ⟨_, by rw [if_neg hroom]; rfl⟩
  | none =>
    unfold putIdentity nextId
    by_cases hmax : db.lastObject = maxInteger
    · exact ⟨db, by rw [if_pos hmax, if_pos ⟨hid, hmax⟩]; rfl⟩
    · have hroom : ¬db.Exhausted o := fun h => hmax h.2
      exact ⟨_, by rw [if_neg hmax, if_neg hroom]; rfl⟩

/-- A refused object is not saved, and changes nothing. -/
theorem Refuses.save_eq (hr : db.Refuses c o e) (h : db.Sound k) :
    db.save c o = (.error e, db) := by
  cases hr with
  | unowned hmodel => simp [save, hmodel]
  | otherClass hmodel hc => simp [save, hmodel, hc]
  | exhausted hmodel hc hex =>
    rename_i model
    obtain ⟨stored, hput⟩ := db.exists_putIdentity_eq o c.name model
    rw [if_pos hex] at hput
    simp [save, hmodel, hc, hput]
  | taken hmodel hc hex hother =>
    rename_i model
    obtain ⟨stored, hput⟩ := db.exists_putIdentity_eq o c.name model
    rw [if_neg hex, if_pos (h.isTaken_iff.mpr hother)] at hput
    simp [save, hmodel, hc, hput]
  | ownerless hmodel hc hex hother hnone =>
    rename_i model
    obtain ⟨stored, hput⟩ := db.exists_putIdentity_eq o c.name model
    rw [if_neg hex, if_neg (mt h.isTaken_iff.mp hother),
      if_pos (by simp [SortedMap.contains, hnone])] at hput
    simp [save, hmodel, hc, hput]

/-- An object that is not refused is saved. -/
theorem Sound.saved_of_not_refuses (h : db.Sound k) (hnot : ∀ e, ¬db.Refuses c o e) :
    ∃ id db', db.save c o = (.ok id, db') := by
  cases hmodel : o.model with
  | none => exact absurd (.unowned hmodel) (hnot _)
  | some model =>
    by_cases hc : o.cls = c
    swap
    · exact absurd (.otherClass hmodel hc) (hnot _)
    have hex : ¬db.Exhausted o := fun hex => hnot _ (.exhausted hmodel hc hex)
    have hother : ¬db.HasOther o model := fun ho => hnot _ (.taken hmodel hc hex ho)
    have howner : db.models.get? model ≠ none := fun hnone =>
      hnot _ (.ownerless hmodel hc hex hother hnone)
    obtain ⟨stored, hput⟩ := db.exists_putIdentity_eq o c.name model
    rw [if_neg hex, if_neg (mt h.isTaken_iff.mp hother),
      if_neg (by simpa [SortedMap.contains, Option.isSome_iff_ne_none] using howner)] at hput
    simp [save, hmodel, hc, hput, ClassRow.ofObject_eq]

/-- **Saving fails for just the objects that are refused.** -/
theorem Sound.save_error_iff (h : db.Sound k) :
    db.save c o = (.error e, db) ↔ db.Refuses c o e := by
  refine ⟨fun hsave => ?_, fun hr => hr.save_eq h⟩
  by_cases hr : ∃ e', db.Refuses c o e'
  · obtain ⟨e', hr⟩ := hr
    have heq := (hr.save_eq h).symm.trans hsave
    obtain rfl : e' = e := by simpa using heq
    exact hr
  · obtain ⟨id, db', hok⟩ := h.saved_of_not_refuses fun e' hr' => hr ⟨e', hr'⟩
    exact nomatch hsave.symm.trans hok

end Database

namespace Store

variable {c : CimClass} {db db' : Database} {os ps os' : List Object}

/-- A batch that is saved can be continued. -/
theorem saveAll_append_ok (h : saveAll c db os = ⟨os', db', .ok ()⟩) (ps : List Object) :
    saveAll c db (os ++ ps) =
      { saveAll c db' ps with objects := os' ++ (saveAll c db' ps).objects } := by
  induction os generalizing db os' with
  | nil =>
    cases h
    rfl
  | cons o os ih =>
    rcases db.save_cases c o with ⟨e, hsave⟩ | ⟨model, id, db₁, hsave, -⟩
    · simp [saveAll, hsave] at h
    · simp only [saveAll, hsave, Saved.mk.injEq] at h
      obtain ⟨rfl, rfl, hok⟩ := h
      rw [List.cons_append, saveAll, hsave]
      simp only
      rw [ih (by rw [← hok])]
      rfl

/-- The beginning of a batch that is saved is saved. -/
theorem saveAll_ok_of_append (h : (saveAll c db (os ++ ps)).result = .ok ()) :
    (saveAll c db os).result = .ok () := by
  induction os generalizing db with
  | nil => rfl
  | cons o os ih =>
    rw [List.cons_append] at h
    rcases db.save_cases c o with ⟨e, hsave⟩ | ⟨model, id, db₁, hsave, -⟩
    · simp [saveAll, hsave] at h
    · simp only [saveAll, hsave] at h ⊢
      exact ih h

/-- The beginnings of a batch that are saved are those in front of the object that is not. -/
theorem saveAll_take_ok_iff {pre pre' post : List Object} {o : Object} {e : Error}
    (hpre : saveAll c db pre = ⟨pre', db', .ok ()⟩) (ho : db'.save c o = (.error e, db'))
    (n : Nat) :
    (saveAll c db ((pre ++ o :: post).take n)).result = .ok () ↔ n ≤ pre.length := by
  constructor
  · intro hok
    by_contra hlt
    obtain ⟨m, hm⟩ : ∃ m, n = pre.length + (m + 1) := ⟨n - pre.length - 1, by omega⟩
    rw [hm, List.take_length_add_append, List.take_succ_cons, saveAll_append_ok hpre] at hok
    simp [saveAll, ho] at hok
  · intro hle
    have hsplit : (saveAll c db (pre.take n ++ pre.drop n)).result = .ok () := by
      rw [List.take_append_drop, hpre]
    rw [List.take_append_of_le_length hle]
    exact saveAll_ok_of_append hsplit

/-- **What a failed batch leaves**: the objects in front of the one that could not be saved are
saved as in a batch of their own, and it and the others are handed back as they came. -/
theorem saveAll_error {e : Error} (h : saveAll c db os = ⟨os', db', .error e⟩) :
    ∃ pre pre' o post, os = pre ++ o :: post ∧ os' = pre' ++ o :: post ∧
      saveAll c db pre = ⟨pre', db', .ok ()⟩ ∧ db'.save c o = (.error e, db') := by
  induction os generalizing db os' with
  | nil => exact nomatch h
  | cons o os ih =>
    rcases db.save_cases c o with ⟨e', hsave⟩ | ⟨model, id, db₁, hsave, -⟩
    · simp only [saveAll, hsave, Saved.mk.injEq] at h
      obtain ⟨rfl, rfl, hr⟩ := h
      cases hr
      exact ⟨[], [], o, os, rfl, rfl, rfl, hsave⟩
    · simp only [saveAll, hsave, Saved.mk.injEq] at h
      obtain ⟨rfl, rfl, hr⟩ := h
      obtain ⟨pre, pre', a, post, rfl, hobjects, hpre, ha⟩ := ih (by rw [← hr])
      refine ⟨o :: pre, { o with id := some id } :: pre', a, post, rfl, ?_, ?_, ha⟩
      · rw [hobjects]
        rfl
      · simp only [saveAll, hsave, hpre]

variable {k : Catalog} {s s' : Store} {cimType : String}

theorem saveBatch_of_get? (hs : s.classes = k) (hc : k.get? cimType = some c) (os : List Object) :
    s.saveBatch cimType os = (((saveAll c s.db os).objects, (saveAll c s.db os).result),
      { s with db := (saveAll c s.db os).db }) := by
  unfold saveBatch
  rw [hs, Catalog.find_eq_ok_iff.mpr hc]

/-- A batch of a class that is not known fails with that error. -/
theorem saveBatch_unknown (hs : s.classes = k) (hc : k.get? cimType = none) (os : List Object) :
    s.saveBatch cimType os = ((os, .error (.unknownClass cimType)), s) := by
  unfold saveBatch Catalog.find
  rw [hs, hc]

/-- The batch ends at the object `o`, which stands behind the objects `pre`. These come back as
`pre'`, and `s'` is the store afterwards. -/
structure EndsAt (k : Catalog) (s : Store) (cimType : String) (os pre pre' : List Object)
    (o : Object) (e : Error) (s' : Store) : Prop where
  /-- The store is what the objects in front leave as a batch of their own. -/
  front : s.saveBatch cimType pre = ((pre', .ok ()), s')
  /-- No shorter beginning of the batch fails, and every longer one does. -/
  first : ∀ n, (s.saveBatch cimType (os.take n)).1.2 = .ok () ↔ n ≤ pre.length
  /-- The objects in front have ids and are else as they were. -/
  savedAs : List.Forall₂ (fun a a' => ∃ model, a.model = some model ∧ a.SavedAs model a') pre pre'
  /-- They are stored under their ids, unless a later one was saved under the id. -/
  holds : ∀ as a bs, pre' = as ++ a :: bs → (∀ b ∈ bs, b.id ≠ a.id) → s'.db.Holds a
  /-- What is stored under other ids is what was stored there before. -/
  frame : ∀ id, (∀ a ∈ pre', a.id ≠ some id) → s'.db.objects.get? id = s.db.objects.get? id
  /-- The object is refused, with this error. -/
  refuses : ∃ c, k.get? cimType = some c ∧ s'.db.Refuses c o e

end Store

namespace Service

variable {k : Catalog} {s : Service}

/-- **A batch that fails has the effect of the objects in front of the one that is refused.** They
are saved, and it and all later ones come back as they were. -/
theorem Reachable.saveBatch_error (hk : k.Storable) (hs : Reachable k s) {cimType : String}
    {os out : List Object} {e : Error} {store : Store}
    (hsave : s.store.saveBatch cimType os = ((out, .error e), store))
    (he : e ≠ .unknownClass cimType) :
    ∃ pre pre' o post, os = pre ++ o :: post ∧ out = pre' ++ o :: post ∧
      s.store.EndsAt k cimType os pre pre' o e store := by
  have h := hs.sound hk
  cases hc : k.get? cimType with
  | none =>
    rw [Store.saveBatch_unknown h.classes hc] at hsave
    cases hsave
    exact absurd rfl he
  | some c =>
    have hbatch := Store.saveBatch_of_get? h.classes hc
    rw [hbatch] at hsave
    rcases hall : Store.saveAll c s.store.db os with ⟨objects, db', result⟩
    rw [hall] at hsave
    cases hsave
    obtain ⟨pre, pre', o, post, rfl, rfl, hpre, ho⟩ := Store.saveAll_error hall
    have hname := hk.name_eq hc
    obtain ⟨pre₁, pre₁', post₁, hos, hobjects, hclasses, heach, hok⟩ :=
      Store.saveAll_spec (hname.symm ▸ hc) s.store.db pre
    rw [hpre] at hobjects heach hok
    obtain rfl := hok rfl
    rw [List.append_nil] at hos hobjects
    subst hos hobjects
    have hsound : db'.Sound k := by
      have := Store.saveAll_sound h.db (hname.symm ▸ hc) pre
      rwa [hpre] at this
    refine ⟨pre, _, o, post, rfl, rfl, ?_, fun n => ?_, heach.savedAs, ?_, fun id hid => ?_, c, hc,
      hsound.save_error_iff.mp ho⟩
    · rw [hbatch, hpre]
    · rw [hbatch]
      exact Store.saveAll_take_ok_iff hpre ho n
    · rintro as a bs rfl hlast
      exact heach.holds hlast
    · exact heach.get?_of_not_mem hid

/-- A new node for the grid's model. -/
def looseNode : Object := { SmallGrid.node "_n5" with model := some 1 }

/-- A node with the rdf:ID of the node that the model has. -/
def takenNode : Object := { SmallGrid.node "_n1" with model := some 1 }

/-- In a transaction the new node is saved before the other one is refused. -/
theorem Reachable.saveBatch_error_takenNode : ∃ store,
    (Op.begin.perform SmallGrid.service).store.saveBatch "TopologicalNode"
        [looseNode, takenNode, looseNode] =
      (([{ looseNode with id := some 5 }, takenNode, looseNode],
        .error (.storage .duplicateIdentity)), store) ∧
    (Op.begin.perform SmallGrid.service).store.EndsAt .standard "TopologicalNode"
      [looseNode, takenNode, looseNode] [looseNode] [{ looseNode with id := some 5 }] takenNode
      (.storage .duplicateIdentity) store := by
  rcases hsave : (Op.begin.perform SmallGrid.service).store.saveBatch "TopologicalNode"
    [looseNode, takenNode, looseNode] with ⟨answer, store⟩
  have hanswer : ((Op.begin.perform SmallGrid.service).store.saveBatch "TopologicalNode"
      [looseNode, takenNode, looseNode]).1 =
      ([{ looseNode with id := some 5 }, takenNode, looseNode],
        .error (.storage .duplicateIdentity)) := by
    decide +kernel
  rw [hsave] at hanswer
  obtain rfl : answer = _ := hanswer
  obtain ⟨pre, pre', o, post, hos, hobjects, hends⟩ :=
    Reachable.saveBatch_error Catalog.standard_storable
      (SmallGrid.reachable_service.perform .begin) hsave (by decide)
  have hone : 1 ≤ pre.length := (hends.first 1).mp (by decide +kernel)
  have htwo : ¬2 ≤ pre.length := mt (hends.first 2).mpr (by decide +kernel)
  obtain ⟨a, rfl⟩ := List.length_eq_one_iff.mp (show pre.length = 1 by omega)
  obtain ⟨a', rfl⟩ := List.length_eq_one_iff.mp (hends.savedAs.length_eq).symm
  obtain ⟨rfl, htail⟩ := List.cons.inj hos
  obtain ⟨rfl, -⟩ := List.cons.inj htail
  obtain ⟨rfl, -⟩ := List.cons.inj hobjects
  exact ⟨store, rfl, hends⟩

end Service

end CimStore

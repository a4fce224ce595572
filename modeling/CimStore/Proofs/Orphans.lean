import CimStore.Proofs.Deleting
import CimStore.Proofs.RoundTrip
import Mathlib.Logic.Relation

/-!
# Collections and what is stored of them

A `Session` is a model in use: objects are added to it, removed from it and added again, and it is
saved. `Session.Inv` is what every step keeps:

* the ids of the collection and of the objects handed back are different and were all given before;
* whatever the model stores is in its collection or among its orphans.

The collection is saved first and the orphans are deleted afterwards, so an object that was removed
and added again before the save is deleted although the model owns it.
`Service.Reachable.inventory_saveModel` says exactly what is stored after a successful save:
the objects of the collection that were not orphans.
-/

namespace CimStore

/-- The entry of a stored object in the listing of its model: its id with its class. -/
def Object.entry? (o : Object) : Option (Int × String) := o.id.map (·, o.cimType)

theorem Object.entry?_eq_some {o : Object} {e : Int × String} :
    o.entry? = some e ↔ o.id = some e.1 ∧ o.cimType = e.2 := by
  obtain ⟨i, t⟩ := e
  unfold entry?
  cases o.id <;> simp

/-- The entries of the objects that have an id. -/
def entriesOf (os : List Object) : List (Int × String) := os.filterMap Object.entry?

theorem mem_entriesOf {os : List Object} {id : Int} {t : String} :
    (id, t) ∈ entriesOf os ↔ ∃ o ∈ os, o.id = some id ∧ o.cimType = t := by
  simp only [entriesOf, List.mem_filterMap, Object.entry?_eq_some]

theorem entriesOf_append (os ps : List Object) :
    entriesOf (os ++ ps) = entriesOf os ++ entriesOf ps :=
  List.filterMap_append ..

theorem entriesOf_map_giveTo (os : List Object) (model : Int) :
    entriesOf (os.map (·.giveTo model)) = entriesOf os := by
  rw [entriesOf, List.filterMap_map]
  rfl

theorem map_fst_entriesOf (os : List Object) :
    (entriesOf os).map (·.1) = os.filterMap (·.id) := by
  rw [entriesOf, List.map_filterMap]
  refine List.filterMap_congr fun o _ => ?_
  unfold Object.entry?
  cases o.id <;> rfl

/-! ## Storing a collection -/

namespace Database.StoresAll

variable {k : Catalog} {model : Int} {db db' : Database} {os os' : List Object}

/-- An object keeps its entry. -/
theorem subset_entriesOf (h : StoresAll k model db os os' db') {e : Int × String}
    (he : e ∈ entriesOf os) : e ∈ entriesOf os' := by
  have hforall := h.savedAs
  clear h
  induction hforall with
  | nil => exact he
  | cons hsaved _ ih =>
    rename_i o o' os os' _
    obtain ⟨i, rfl, hid⟩ := hsaved
    obtain ⟨a, ha, hai⟩ := List.mem_filterMap.mp he
    obtain ⟨haid, hat⟩ := Object.entry?_eq_some.mp hai
    rcases List.mem_cons.mp ha with rfl | ha
    · have hi : i = e.1 := by
        rcases hid with hid | hid
        · exact Option.some.inj (hid.symm.trans haid)
        · exact nomatch hid.symm.trans haid
      exact List.mem_filterMap.mpr ⟨_, List.mem_cons_self .., Object.entry?_eq_some.mpr
        ⟨congrArg some hi, hat⟩⟩
    · obtain ⟨b, hb, hbe⟩ := List.mem_filterMap.mp
        (ih (List.mem_filterMap.mpr ⟨a, ha, hai⟩))
      exact List.mem_filterMap.mpr ⟨b, List.mem_cons_of_mem _ hb, hbe⟩

/-- **Every object is listed with its class**, if under its id there was none of another class. Its
entry is old, or its id is new. -/
theorem mem_objectsOf (h : StoresAll k model db os os' db') (hnodup : (os'.map (·.id)).Nodup)
    (hclass : ∀ e ∈ entriesOf os, ∀ st, db.objects.get? e.1 = some st → st.cimType = e.2)
    (hle : ∀ {id st}, db.objects.get? id = some st → id ≤ db.lastObject) {e : Int × String}
    (he : e ∈ entriesOf os') :
    e ∈ db'.objectsOf model ∧ e.1 ≤ db'.lastObject ∧
      (e ∈ entriesOf os ∨ db.lastObject < e.1) := by
  obtain ⟨id, t⟩ := e
  obtain ⟨o', ho', hoid, rfl⟩ := mem_entriesOf.mp he
  have hclass' : ∀ o ∈ os, ∀ i, o.id = some i → ∀ st, db.objects.get? i = some st →
      st.cimType = o.cimType := fun o ho i hi =>
    hclass (i, o.cimType) (mem_entriesOf.mpr ⟨o, ho, hi, rfl⟩)
  obtain ⟨i, st, hi, -, -, hst, -, hmodel, -, htype, hcase⟩ :=
    h.stored_of_mem hnodup hle hclass' ho'
  obtain ⟨j, hj, hjle, -⟩ := h.id_cases ho'
  obtain rfl : i = id := Option.some.inj (hi.symm.trans hoid)
  obtain rfl : j = i := Option.some.inj (hj.symm.trans hoid)
  refine ⟨Database.mem_objectsOf.mpr ⟨st, hst, hmodel, htype⟩, hjle, ?_⟩
  refine hcase.imp_left fun ⟨o, ho, hid, hcls⟩ => mem_entriesOf.mpr ⟨o, ho, hid, ?_⟩
  rw [Object.cimType, hcls]
  rfl

end Database.StoresAll

/-! ## Saving a model -/

namespace Service

variable {k : Catalog} {s s' : Service}

theorem mem_orphansByType {orphans : List Orphan} {id : Int} {t : String} :
    (∃ b ∈ (orphansByType orphans).entries, b.1 = t ∧ id ∈ b.2) ↔ ⟨t, id⟩ ∈ orphans := by
  have hmem : (t, id) ∈ byType (orphans.map fun o => (o.id, o.cimType)) ↔
      (id, t) ∈ orphans.map fun o => (o.id, o.cimType) := mem_byType
  have hleft : (∃ b ∈ (orphansByType orphans).entries, b.1 = t ∧ id ∈ b.2) ↔
      (t, id) ∈ byType (orphans.map fun o => (o.id, o.cimType)) := by
    simp only [byType, List.mem_flatMap, List.mem_map, Prod.mk.injEq]
    constructor
    · rintro ⟨b, hb, rfl, hid⟩
      exact ⟨b, hb, id, hid, rfl, rfl⟩
    · rintro ⟨b, hb, i, hid, rfl, rfl⟩
      exact ⟨b, hb, rfl, hid⟩
  rw [hleft, hmem]
  constructor
  · intro h
    obtain ⟨o, ho, heq⟩ := List.mem_map.mp h
    obtain ⟨rfl, rfl⟩ := Prod.mk.inj heq
    exact ho
  · exact fun h => List.mem_map_of_mem (f := fun o : Orphan => (o.id, o.cimType)) h

/-- **What saving a model does**: the model is stored, then its collection up to the first object
that cannot be saved, and if all of it is, the orphans are deleted class by class, up to the first
class that is not known. -/
theorem saveModel_spec (hk : k.Storable) (hs : s.store.classes = k) {m m' : Model}
    {r : Except Error Int} (h : saveModel m s = ((m', r), s')) :
    (∃ e, r = .error e ∧ m' = m ∧ m.id = none) ∨
    ∃ (model : Int) (pre pre' post post' : List Object) (db : Database)
        (done rest : List (String × List Int)),
      (m.id = some model ∨ m.id = none ∧ model = s.store.db.lastModel + 1) ∧
      m'.id = some model ∧ m'.name = m.name ∧
      (pre ++ post).Perm (m.objects.map (·.giveTo model)) ∧
      m'.objects = pre' ++ post' ∧ post'.map (·.giveTo model) = post.map (·.giveTo model) ∧
      Database.StoresAll k model (s.store.db.nameModel model m.name) (pre.map (·.giveTo model)) pre' db ∧
      (orphansByType m.orphans).entries = done ++ rest ∧
      s'.store = { s.store with db := db.dropAll done } ∧
      ((∃ e, r = .error e) ∧ m'.orphans = m.orphans ∧
          (done = [] ∨ ∃ b ∈ rest, k.get? b.1 = none) ∨
        r = .ok model ∧ post = [] ∧ rest = [] ∧ m'.orphans = []) := by
  unfold saveModel at h
  rcases hpersist : persist m s with ⟨⟨m₁, r₁⟩, s₁⟩
  rw [bind_eq hpersist] at h
  cases r₁ with
  | error e =>
    cases h
    exact .inl ⟨e, rfl, persist_error hpersist⟩
  | ok model =>
    obtain ⟨hid, rfl, hstore₁⟩ := persist_ok hpersist
    have hclasses₁ : s₁.store.classes = k := by rw [hstore₁]; exact hs
    change (saveBatches model (groupByType (m.setId model).objects) >>= _) _ = _ at h
    rcases hbatches : saveBatches model (groupByType (m.setId model).objects) s₁ with
      ⟨⟨os', r₂⟩, s₂⟩
    obtain ⟨pre, pre', post, post', hbs, rfl, hall, hpost, hok, hstore₂⟩ :=
      saveBatches_spec hk hclasses₁ hbatches
    rw [bind_eq hbatches] at h
    have hperm : (pre ++ post).Perm (m.objects.map (·.giveTo model)) :=
      hbs ▸ perm_groupByType _
    rw [hstore₁] at hall hstore₂
    refine .inr ⟨model, pre, pre', post, post', s₂.store.db, ?_⟩
    cases r₂ with
    | error e =>
      cases h
      exact ⟨[], _, hid, rfl, rfl, hperm, rfl, hpost, hall, rfl, hstore₂,
        .inl ⟨⟨e, rfl⟩, rfl, .inl rfl⟩⟩
    | ok _ =>
      obtain rfl := hok rfl
      have hclasses₂ : s₂.store.classes = k := by rw [hstore₂]; exact hs
      change (deleteAll (orphansByType m.orphans).entries >>= _) _ = _ at h
      rcases hdelete : deleteAll (orphansByType m.orphans).entries s₂ with ⟨r₃, s₃⟩
      obtain ⟨done, rest, hentries, hstore₃, hrest⟩ := deleteAll_cases hk hclasses₂ hdelete
      have hstore : s₃.store = { s.store with db := s₂.store.db.dropAll done } := by
        rw [hstore₃, hstore₂]
      rw [bind_eq hdelete] at h
      cases r₃ with
      | error e =>
        cases h
        rcases hrest with ⟨hok, -⟩ | ⟨-, hnone⟩
        · exact nomatch hok
        · exact ⟨done, rest, hid, rfl, rfl, hperm, rfl, hpost, hall, hentries, hstore,
            .inl ⟨⟨e, rfl⟩, rfl, .inr hnone⟩⟩
      | ok _ =>
        cases h
        rcases hrest with ⟨-, hnil⟩ | ⟨⟨e, herror⟩, -⟩
        · exact ⟨done, rest, hid, rfl, rfl, hperm, rfl, hpost, hall, hentries, hstore,
            .inr ⟨rfl, rfl, hnil, rfl⟩⟩
        · exact nomatch herror

/-- **Saving a model**: the collection is stored up to the first object that cannot be saved, and if
all of it is, the entries of the orphans are deleted. -/
theorem saveModel_cases (hk : k.Storable) (hs : s.store.classes = k) {m m' : Model}
    {r : Except Error Int} (h : saveModel m s = ((m', r), s')) :
    (∃ e, r = .error e ∧ m' = m ∧ m.id = none) ∨
    ∃ (model : Int) (pre pre' post post' : List Object) (db : Database),
      (m.id = some model ∨ m.id = none ∧ model = s.store.db.lastModel + 1) ∧
      m'.id = some model ∧ (pre ++ post).Perm (m.objects.map (·.giveTo model)) ∧
      m'.objects = pre' ++ post' ∧ entriesOf post' = entriesOf post ∧
      Database.StoresAll k model (s.store.db.nameModel model m.name) (pre.map (·.giveTo model)) pre' db ∧
      db.Shrinks s'.store.db ∧
      ((∃ e, r = .error e) ∧ m'.orphans = m.orphans ∨
        r = .ok model ∧ post = [] ∧ post' = [] ∧ m'.orphans = [] ∧
          ∀ id t, (id, t) ∈ s'.store.db.objectsOf model ↔
            (id, t) ∈ db.objectsOf model ∧ ⟨t, id⟩ ∉ m.orphans) := by
  rcases saveModel_spec hk hs h with hnone | ⟨model, pre, pre', post, post', db, done, rest, hid,
    hid', -, hperm, hobjects, hpost, hall, hdone, hstore, hcase⟩
  · exact .inl hnone
  have hentries : entriesOf post' = entriesOf post := by
    rw [← entriesOf_map_giveTo post' model, hpost, entriesOf_map_giveTo]
  refine .inr ⟨model, pre, pre', post, post', db, hid, hid', hperm, hobjects, hentries, hall,
    hstore ▸ Database.Shrinks.dropAll db done, hcase.imp (fun h => ⟨h.1, h.2.1⟩) ?_⟩
  rintro ⟨hr, rfl, rfl, horphans⟩
  refine ⟨hr, rfl, by simpa using hpost, horphans, fun id t => ?_⟩
  rw [List.append_nil] at hdone
  rw [hstore, Database.mem_objectsOf_dropAll, ← hdone, ← mem_orphansByType]
  simp only [not_exists, not_and]

end Service

/-! ## Sessions -/

/-- A model in use, the service that saves it, and the objects that the model has handed back. -/
structure Session where
  service : Service
  model : Model
  inHand : List Object

namespace Session

/-- What can happen to a model that only its owner writes to. -/
inductive Step : Session → Session → Prop
  /-- A new object is added. -/
  | add {s : Session} (o : Object) : o.id = none → Step s { s with model := s.model.add o }
  /-- An object that was handed back is added again, its attributes perhaps set anew. -/
  | addBack {s : Session} {o o' : Object} {before after : List Object} :
      s.inHand = before ++ o :: after → o'.cls = o.cls → o'.id = o.id →
      Step s { s with model := s.model.add o', inHand := before ++ after }
  /-- An object is removed and handed back. -/
  | remove {s : Session} {rdfid : String} {o : Object} {m : Model} :
      s.model.remove rdfid = some (o, m) →
      Step s { s with model := m, inHand := o :: s.inHand }
  /-- The model is saved, with or without success. -/
  | save {s : Session} : Step s { s with
      model := (Service.saveModel s.model s.service).1.1
      service := (Service.saveModel s.model s.service).2 }

/-- The session is brought from one state to another by any number of steps. -/
def Run : Session → Session → Prop := Relation.ReflTransGen Step

/-- The entries of the collection and of the objects handed back. -/
def entries (s : Session) : List (Int × String) := entriesOf (s.model.objects ++ s.inHand)

/-- What holds all through a session. -/
structure Inv (k : Catalog) (s : Session) : Prop where
  sound : s.service.store.Sound k
  /-- Ids that the session knows were given before. -/
  given : ∀ e ∈ s.entries, e.1 ≤ s.service.store.db.lastObject
  queued : ∀ o ∈ s.model.orphans, o.id ≤ s.service.store.db.lastObject
  nodup : (s.entries.map (·.1)).Nodup
  /-- Under an id that the session knows there is at most an object of its class. -/
  class_eq : ∀ e ∈ s.entries, ∀ st, s.service.store.db.objects.get? e.1 = some st →
    st.cimType = e.2
  /-- What the model stores is in its collection or is an orphan. -/
  listed : ∀ model, s.model.id = some model → ∀ e ∈ s.service.store.db.objectsOf model,
    e ∈ entriesOf s.model.objects ∨ ⟨e.2, e.1⟩ ∈ s.model.orphans
  /-- A model that was never saved has no stored objects. -/
  fresh : s.model.id = none → s.entries = [] ∧ s.model.orphans = []

variable {k : Catalog} {s s' : Session}

theorem mem_entries_of_objects {e : Int × String} (h : e ∈ entriesOf s.model.objects) :
    e ∈ s.entries := by
  rw [entries, entriesOf_append]
  exact List.mem_append_left _ h

theorem mem_entries_of_inHand {e : Int × String} (h : e ∈ entriesOf s.inHand) : e ∈ s.entries := by
  rw [entries, entriesOf_append]
  exact List.mem_append_right _ h

/-- A step that only moves objects between collection and hand keeps the invariant, if it lets no
stored object out of both the collection and the queue. -/
theorem Inv.move (h : Inv k s) {m : Model} {hand : List Object} (hid : m.id = s.model.id)
    (hperm : (entriesOf (m.objects ++ hand)).Perm s.entries)
    (hqueued : ∀ o ∈ m.orphans, o.id ≤ s.service.store.db.lastObject)
    (hlisted : ∀ e, e ∈ entriesOf s.model.objects ∨ ⟨e.2, e.1⟩ ∈ s.model.orphans →
      e ∈ entriesOf m.objects ∨ ⟨e.2, e.1⟩ ∈ m.orphans)
    (hfresh : s.model.id = none → m.orphans = []) :
    Inv k { s with model := m, inHand := hand } where
  sound := h.sound
  given e he := h.given e (hperm.mem_iff.mp he)
  queued := hqueued
  nodup := (hperm.map _).nodup_iff.mpr h.nodup
  class_eq e he := h.class_eq e (hperm.mem_iff.mp he)
  listed model hmodel e he := hlisted e (h.listed model (hid ▸ hmodel) e he)
  fresh hnone := by
    have hnone := hid ▸ hnone
    exact ⟨List.perm_nil.mp ((h.fresh hnone).1 ▸ hperm), hfresh hnone⟩

theorem entriesOf_add (m : Model) (o : Object) :
    entriesOf (m.add o).objects = entriesOf m.objects ++ entriesOf [o] := by
  unfold Model.add
  cases m.id with
  | none => exact entriesOf_append ..
  | some id => exact entriesOf_append ..

theorem Inv.add (h : Inv k s) {o : Object} (ho : o.id = none) :
    Inv k { s with model := s.model.add o } := by
  have hentries : entriesOf (s.model.add o).objects = entriesOf s.model.objects := by
    rw [entriesOf_add, show entriesOf [o] = [] from by simp [entriesOf, Object.entry?, ho],
      List.append_nil]
  refine h.move rfl ?_ h.queued ?_ fun hnone => (h.fresh hnone).2
  · rw [entriesOf_append, hentries, ← entriesOf_append]
    exact List.Perm.refl _
  · rw [hentries]
    exact fun _ h => h

theorem Inv.addBack (h : Inv k s) {o o' : Object} {before after : List Object}
    (hhand : s.inHand = before ++ o :: after) (hcls : o'.cls = o.cls) (hid : o'.id = o.id) :
    Inv k { s with model := s.model.add o', inHand := before ++ after } := by
  have hentry : entriesOf [o'] = entriesOf [o] := by
    have hone : o'.entry? = o.entry? := by
      unfold Object.entry? Object.cimType
      rw [hcls, hid]
    simp only [entriesOf, List.filterMap_cons, hone]
  refine h.move rfl ?_ h.queued ?_ fun hnone => (h.fresh hnone).2
  · rw [entries, hhand, entriesOf_append, entriesOf_append, entriesOf_add, hentry,
      entriesOf_append, entriesOf_append, show o :: after = [o] ++ after from rfl,
      entriesOf_append, List.append_assoc]
    refine List.Perm.append_left _ ?_
    rw [← List.append_assoc, ← List.append_assoc]
    exact List.perm_append_comm.append_right _
  · rw [entriesOf_add]
    exact fun e he => he.imp_left (List.mem_append_left _)

theorem perm_withoutFirst {rdfid : String} {os : List Object} {o : Object}
    (h : os.find? (·.rdfid = rdfid) = some o) :
    os.Perm (o :: Model.withoutFirst rdfid os) := by
  induction os with
  | nil => exact nomatch h
  | cons a os ih =>
    unfold Model.withoutFirst
    by_cases ha : a.rdfid = rdfid
    · rw [List.find?_cons_of_pos (by simpa using ha)] at h
      cases h
      rw [if_pos ha]
    · rw [List.find?_cons_of_neg (by simpa using ha)] at h
      rw [if_neg ha]
      exact ((ih h).cons a).trans (List.Perm.swap ..)

theorem Inv.remove (h : Inv k s) {rdfid : String} {o : Object} {m : Model}
    (hrem : s.model.remove rdfid = some (o, m)) :
    Inv k { s with model := m, inHand := o :: s.inHand } := by
  obtain ⟨o, hfind, heq⟩ := Option.map_eq_some_iff.mp hrem
  have hperm := perm_withoutFirst hfind
  have hsub : ∀ e ∈ entriesOf s.model.objects, o.entry? = some e ∨
      e ∈ entriesOf (Model.withoutFirst rdfid s.model.objects) := by
    intro e he
    have hmem := (hperm.filterMap Object.entry?).mem_iff.mp he
    obtain ⟨a, ha, hae⟩ := List.mem_filterMap.mp hmem
    rcases List.mem_cons.mp ha with rfl | ha
    · exact .inl hae
    · exact .inr (List.mem_filterMap.mpr ⟨a, ha, hae⟩)
  have hmoved : (entriesOf (Model.withoutFirst rdfid s.model.objects ++ o :: s.inHand)).Perm
      s.entries :=
    (List.perm_middle.trans (hperm.symm.append_right s.inHand)).filterMap _
  cases hid : o.id with
  | none =>
    simp only [hid] at heq
    cases heq
    refine h.move rfl hmoved h.queued (fun e he => ?_) fun hnone => (h.fresh hnone).2
    rcases he with he | he
    · rcases hsub e he with hentry | he
      · exact nomatch hid.symm.trans (Object.entry?_eq_some.mp hentry).1
      · exact .inl he
    · exact .inr he
  | some id =>
    simp only [hid] at heq
    cases heq
    have hentry : (id, o.cimType) ∈ s.entries :=
      mem_entries_of_objects (mem_entriesOf.mpr ⟨o, List.mem_of_find?_eq_some hfind, hid, rfl⟩)
    refine h.move rfl hmoved (fun q hq => ?_) (fun e he => ?_) fun hnone => ?_
    · rcases List.mem_append.mp hq with hq | hq
      · exact h.queued q hq
      · rw [List.mem_singleton.mp hq]
        exact h.given _ hentry
    · rcases he with he | he
      · rcases hsub e he with hentry | he
        · obtain ⟨hid', htype⟩ := Object.entry?_eq_some.mp hentry
          obtain rfl : id = e.1 := Option.some.inj (hid.symm.trans hid')
          exact .inr (List.mem_append_right _ (by rw [htype]; exact List.mem_singleton_self _))
        · exact .inl he
      · exact .inr (List.mem_append_left _ he)
    · rw [(h.fresh hnone).1] at hentry
      exact absurd hentry List.not_mem_nil

/-- What is known after some of the entries have been stored, `rest` being those of all other
objects of the session. -/
private structure Stored (s : Session) (model : Int) (old new rest : List (Int × String))
    (db : Database) : Prop where
  mem : ∀ e ∈ new, e ∈ db.objectsOf model ∧ e.1 ≤ db.lastObject ∧
    (e ∈ old ∨ s.service.store.db.lastObject < e.1)
  subset : ∀ e ∈ old, e ∈ new
  nodup : ((new ++ rest).map (·.1)).Nodup
  class_eq : ∀ e ∈ rest, ∀ st, db.objects.get? e.1 = some st → st.cimType = e.2
  only : ∀ e ∈ db.objectsOf model, e ∈ new ∨ e ∈ s.service.store.db.objectsOf model
  lastObject_le : s.service.store.db.lastObject ≤ db.lastObject

private theorem Inv.stored (h : Inv k s) {model : Int} {os os' : List Object}
    {rest : List (Int × String)} {db₁ db : Database}
    (hobjects : db₁.objects = s.service.store.db.objects)
    (hlast : db₁.lastObject = s.service.store.db.lastObject)
    (hall : Database.StoresAll k model db₁ os os' db)
    (hperm : (entriesOf os ++ rest).Perm s.entries) :
    Stored s model (entriesOf os) (entriesOf os') rest db := by
  have hold : ∀ e ∈ entriesOf os, e ∈ s.entries := fun e he =>
    hperm.mem_iff.mp (List.mem_append_left _ he)
  have hrest : ∀ e ∈ rest, e ∈ s.entries := fun e he =>
    hperm.mem_iff.mp (List.mem_append_right _ he)
  have hnodup : ((entriesOf os ++ rest).map (·.1)).Nodup :=
    (hperm.map _).nodup_iff.mpr h.nodup
  rw [List.map_append, List.nodup_append] at hnodup
  obtain ⟨hnodup₁, hnodup₂, hdisjoint⟩ := hnodup
  have hids : (os'.map (·.id)).Nodup := by
    refine hall.nodup_ids (map_fst_entriesOf os ▸ hnodup₁) fun o ho id hoid => ?_
    rw [hlast]
    exact h.given (id, o.cimType) (hold _ (mem_entriesOf.mpr ⟨o, ho, hoid, rfl⟩))
  have hmem : ∀ e ∈ entriesOf os', e ∈ db.objectsOf model ∧ e.1 ≤ db.lastObject ∧
      (e ∈ entriesOf os ∨ s.service.store.db.lastObject < e.1) := by
    intro e he
    rw [← hlast]
    refine hall.mem_objectsOf hids (fun e he => ?_) (fun {id st} hst => ?_) he
    · rw [hobjects]
      exact h.class_eq e (hold e he)
    · rw [hobjects] at hst
      exact hlast ▸ h.sound.db.object_le hst
  have hframe : ∀ id, (∀ e ∈ entriesOf os', e.1 ≠ id) →
      db.objects.get? id = s.service.store.db.objects.get? id := by
    intro id hid
    rw [← hobjects]
    exact hall.get?_of_not_mem fun o ho hoid =>
      hid (id, o.cimType) (mem_entriesOf.mpr ⟨o, ho, hoid, rfl⟩) rfl
  -- The ids of the rest are neither those that were there nor new ones.
  have hother : ∀ e ∈ rest, ∀ e' ∈ entriesOf os', e'.1 ≠ e.1 := by
    intro e he e' he' heq
    rcases (hmem e' he').2.2 with hin | hlt
    · exact hdisjoint _ (List.mem_map_of_mem (f := (·.1)) hin) _
        (List.mem_map_of_mem (f := (·.1)) he) heq
    · have := h.given e (hrest e he)
      omega
  refine ⟨hmem, fun e he => hall.subset_entriesOf he, ?_, ?_, ?_, hlast ▸ hall.lastObject_le⟩
  · rw [List.map_append, List.nodup_append]
    refine ⟨?_, hnodup₂, ?_⟩
    · rw [map_fst_entriesOf, show os'.filterMap (·.id) = (os'.map (·.id)).filterMap id from by
        rw [List.filterMap_map]; rfl]
      exact List.Nodup.filterMap (fun _ _ _ ha ha' => ha.trans ha'.symm) hids
    · intro i hi j hj heq
      obtain ⟨e', he', rfl⟩ := List.mem_map.mp hi
      obtain ⟨e, he, rfl⟩ := List.mem_map.mp hj
      exact hother e he e' he' heq
  · intro e he st hst
    rw [hframe e.1 (hother e he)] at hst
    exact h.class_eq e (hrest e he) st hst
  · intro e he
    by_cases hnew : ∃ e' ∈ entriesOf os', e'.1 = e.1
    · obtain ⟨e', he', heq⟩ := hnew
      obtain ⟨st, hst, -, htype⟩ := Database.mem_objectsOf.mp he
      obtain ⟨st', hst', -, htype'⟩ := Database.mem_objectsOf.mp (hmem e' he').1
      rw [heq, hst, Option.some.injEq] at hst'
      subst hst'
      obtain rfl : e' = e := Prod.ext heq (htype'.symm.trans htype)
      exact .inl he'
    · obtain ⟨st, hst, hmodel, htype⟩ := Database.mem_objectsOf.mp he
      rw [hframe e.1 fun e' he' heq => hnew ⟨e', he', heq⟩] at hst
      exact .inr (Database.mem_objectsOf.mpr ⟨st, hst, hmodel, htype⟩)

/-- What is stored of the model is in its new collection or was an orphan, if the collection has
grown by new ids only. -/
private theorem Stored.listed {model : Int} {old new rest collection : List (Int × String)}
    {db : Database} (hst : Stored s model old new rest db) (h : Inv k s)
    (hid : s.model.id = some model ∨
      s.model.id = none ∧ model = s.service.store.db.lastModel + 1)
    (hnew : ∀ e ∈ new, e ∈ collection)
    (hgrown : ∀ e ∈ entriesOf s.model.objects, e ∈ collection) :
    ∀ e ∈ db.objectsOf model, e ∈ collection ∨ ⟨e.2, e.1⟩ ∈ s.model.orphans := by
  intro e he
  rcases hst.only e he with hin | hbefore
  · exact .inl (hnew e hin)
  · rcases hid with hid | ⟨-, rfl⟩
    · exact (h.listed model hid e hbefore).imp_left (hgrown e)
    · -- Nothing was stored of a model whose id is new.
      obtain ⟨st, hget, hmodel, -⟩ := Database.mem_objectsOf.mp hbefore
      obtain ⟨name, hname⟩ := h.sound.db.owner hget
      have hle := h.sound.db.model_le (hmodel ▸ hname)
      omega

/-- The invariant after the collection has been stored and some of it has been deleted. -/
private theorem Stored.inv {model : Int} {old new rest : List (Int × String)} {db : Database}
    (hst : Stored s model old new rest db) (h : Inv k s) {m' : Model} {out : Service}
    (hsound : out.store.Sound k) (hshrinks : db.Shrinks out.store.db) (hid : m'.id = some model)
    (hentries : entries { s with model := m', service := out } = new ++ rest)
    (hrest : ∀ e ∈ rest, e ∈ s.entries) (hqueue : ∀ o ∈ m'.orphans, o ∈ s.model.orphans)
    (hlisted : ∀ e ∈ out.store.db.objectsOf model,
      e ∈ entriesOf m'.objects ∨ ⟨e.2, e.1⟩ ∈ m'.orphans) :
    Inv k { s with model := m', service := out } := by
  have hlast : out.store.db.lastObject = db.lastObject := hshrinks.lastObject
  have hle := hst.lastObject_le
  refine ⟨hsound, ?given, ?queued, ?nodup, ?class_eq, ?listed, ?fresh⟩
  case given =>
    intro e he
    show e.1 ≤ out.store.db.lastObject
    rw [hentries, List.mem_append] at he
    rw [hlast]
    rcases he with he | he
    · exact (hst.mem e he).2.1
    · have hgiven := h.given e (hrest e he)
      omega
  case queued =>
    intro o ho
    have hgiven := h.queued o (hqueue o ho)
    show o.id ≤ out.store.db.lastObject
    rw [hlast]
    omega
  case nodup =>
    rw [hentries]
    exact hst.nodup
  case class_eq =>
    intro e he st hget
    obtain ⟨st₀, hget₀, -, htype⟩ := hshrinks.old hget
    rw [htype]
    rw [hentries, List.mem_append] at he
    rcases he with he | he
    · obtain ⟨st₁, hget₁, -, htype₁⟩ := Database.mem_objectsOf.mp (hst.mem e he).1
      rw [hget₀, Option.some.injEq] at hget₁
      rw [hget₁]
      exact htype₁
    · exact hst.class_eq e he st₀ hget₀
  case listed =>
    intro model' hmodel'
    obtain rfl : model = model' := Option.some.inj (hid.symm.trans hmodel')
    exact hlisted
  case fresh =>
    exact fun hnone => nomatch hnone.symm.trans hid

/-- A model that could not even be given an id stays as it was. -/
private theorem Inv.unsaved (h : Inv k s) {out : Service} (hsound : out.store.Sound k)
    (hnone : s.model.id = none) : Inv k { s with service := out } := by
  obtain ⟨hentries, horphans⟩ := h.fresh hnone
  have hnot : ∀ e, e ∉ s.entries := by simp [hentries]
  refine ⟨hsound, ?_, ?_, h.nodup, ?_, ?_, h.fresh⟩
  · exact fun e he => absurd he (hnot e)
  · intro o ho
    have hnil : o ∈ ([] : List Orphan) := horphans ▸ ho
    exact absurd hnil List.not_mem_nil
  · exact fun e he => absurd he (hnot e)
  · exact fun model hmodel => nomatch hnone.symm.trans hmodel

/-- **Saving keeps the invariant.** If it succeeds, the model stores the objects of its collection
that were not among its orphans. -/
theorem Inv.save (h : Inv k s) (hk : k.Storable) {m' : Model} {r : Except Error Int}
    {out : Service} (hsave : Service.saveModel s.model s.service = ((m', r), out)) :
    Inv k { s with model := m', service := out } ∧
      ∀ model, r = .ok model → m'.id = some model ∧
        (∃ ps, ps.Perm (s.model.objects.map (·.giveTo model)) ∧
          List.Forall₂ (Object.SavedAs model) ps m'.objects) ∧
        (∀ e ∈ entriesOf m'.objects,
          e ∈ entriesOf s.model.objects ∨ s.service.store.db.lastObject < e.1) ∧
        (∀ e ∈ entriesOf s.model.objects, e ∈ entriesOf m'.objects) ∧
        ∀ e, e ∈ out.store.db.objectsOf model ↔
          e ∈ entriesOf m'.objects ∧ ⟨e.2, e.1⟩ ∉ s.model.orphans := by
  have hsound : out.store.Sound k := by
    have := Service.Keeps.saveModel (Store.invariant_sound hk) s.model s.service h.sound
    rwa [hsave] at this
  rcases Service.saveModel_cases hk h.sound.classes hsave with ⟨e, rfl, rfl, hnone⟩ |
    ⟨model, pre, pre', post, post', db, hid, hid', hperm, hobjects, hpost, hall, hshrinks, hcase⟩
  · exact ⟨h.unsaved hsound hnone, fun _ h => nomatch h⟩
  have hmoved : (entriesOf pre ++ entriesOf post).Perm (entriesOf s.model.objects) := by
    rw [← entriesOf_append, ← entriesOf_map_giveTo s.model.objects model]
    exact hperm.filterMap _
  have hst : Stored s model (entriesOf pre) (entriesOf pre')
      (entriesOf post ++ entriesOf s.inHand) db := by
    rw [← entriesOf_map_giveTo pre model]
    refine h.stored (by rfl) (by rfl) hall ?_
    rw [entriesOf_map_giveTo, ← List.append_assoc, entries, entriesOf_append]
    exact hmoved.append_right _
  have hcollection : entriesOf m'.objects = entriesOf pre' ++ entriesOf post := by
    rw [hobjects, entriesOf_append, hpost]
  have hentries : entries { s with model := m', service := out } =
      entriesOf pre' ++ (entriesOf post ++ entriesOf s.inHand) := by
    rw [entries, entriesOf_append, hcollection, List.append_assoc]
  have hrest : ∀ e ∈ entriesOf post ++ entriesOf s.inHand, e ∈ s.entries := by
    intro e he
    rcases List.mem_append.mp he with he | he
    · exact mem_entries_of_objects (hmoved.mem_iff.mp (List.mem_append_right _ he))
    · exact mem_entries_of_inHand he
  have hnew : ∀ e ∈ entriesOf pre', e ∈ entriesOf m'.objects := fun e he =>
    hcollection ▸ List.mem_append_left _ he
  have hgrown : ∀ e ∈ entriesOf s.model.objects, e ∈ entriesOf m'.objects := by
    intro e he
    rw [hcollection, List.mem_append]
    exact (List.mem_append.mp (hmoved.mem_iff.mpr he)).imp_left (hst.subset e)
  have hlisted := hst.listed h hid hnew hgrown
  rcases hcase with ⟨⟨e, rfl⟩, horphans⟩ | ⟨rfl, rfl, rfl, horphans, hiff⟩
  · -- The queue is what it was.
    refine ⟨hst.inv h hsound hshrinks hid' hentries hrest ?_ ?_, fun _ h => nomatch h⟩
    · exact fun o ho => horphans ▸ ho
    · exact fun e he => horphans ▸ hlisted e (hshrinks.mem_objectsOf he)
  · -- The queue is worked off.
    refine ⟨hst.inv h hsound hshrinks hid' hentries hrest ?_ ?_, ?_⟩
    · exact fun o ho => absurd (horphans ▸ ho) List.not_mem_nil
    · intro e he
      obtain ⟨hin, hnot⟩ := (hiff e.1 e.2).mp he
      exact .inl ((hlisted e hin).resolve_right hnot)
    · intro model' hr
      obtain rfl : model = model' := Except.ok.inj hr
      rw [List.append_nil] at hobjects hperm
      refine ⟨hid', ⟨pre, hperm, ?_⟩, ?_, hgrown, ?_⟩
      · rw [hobjects]
        exact (List.forall₂_map_left_iff.mp hall.savedAs).imp fun _ _ h => h
      · intro e he
        rw [hobjects] at he
        exact (hst.mem e he).2.2.imp_left fun he =>
          hmoved.mem_iff.mp (List.mem_append_left _ he)
      · intro e
        rw [hiff e.1 e.2]
        constructor
        · exact fun ⟨hin, hnot⟩ => ⟨(hlisted e hin).resolve_right hnot, hnot⟩
        · intro ⟨hin, hnot⟩
          rw [hobjects] at hin
          exact ⟨(hst.mem e hin).1, hnot⟩

theorem Inv.step (h : Inv k s) (hk : k.Storable) (hstep : Step s s') : Inv k s' := by
  cases hstep with
  | add o ho => exact h.add ho
  | addBack hhand hcls hid => exact h.addBack hhand hcls hid
  | remove hrem => exact h.remove hrem
  | save => exact (h.save hk rfl).1

theorem Inv.run (h : Inv k s) (hk : k.Storable) (hrun : Run s s') : Inv k s' := by
  induction hrun with
  | refl => exact h
  | tail _ hstep ih => exact ih.step hk hstep

/-- A session begins with an empty model of which nothing is stored. -/
theorem Inv.start (hk : k.Storable) {service : Service} (hs : service.Reachable k) {m : Model}
    (hobjects : m.objects = []) (horphans : m.orphans = [])
    (hnew : ∀ model, m.id = some model → service.store.findObjects model = []) :
    Inv k ⟨service, m, []⟩ := by
  have hentries : entries ⟨service, m, []⟩ = [] := by
    simp [entries, hobjects, entriesOf]
  refine ⟨hs.sound hk, ?_, ?_, ?_, ?_, ?_, fun _ => ⟨hentries, horphans⟩⟩
  · intro e he
    exact absurd (hentries ▸ he) List.not_mem_nil
  · intro o ho
    exact absurd (horphans ▸ ho : o ∈ []) List.not_mem_nil
  · rw [hentries]
    exact List.nodup_nil
  · intro e he
    exact absurd (hentries ▸ he) List.not_mem_nil
  · intro model hmodel e he
    exact absurd (hnew model hmodel ▸ he : e ∈ []) List.not_mem_nil

/-- No object that was handed back has the id of one in the collection. -/
theorem Inv.disjoint (h : Inv k s) {e e' : Int × String} (he : e ∈ entriesOf s.model.objects)
    (he' : e' ∈ entriesOf s.inHand) : e.1 ≠ e'.1 := by
  have hnodup := h.nodup
  rw [entries, entriesOf_append, List.map_append, List.nodup_append] at hnodup
  exact hnodup.2.2 _ (List.mem_map_of_mem (f := (·.1)) he) _
    (List.mem_map_of_mem (f := (·.1)) he')

end Session

namespace Service

variable {k : Catalog} {s s' : Service}

/-- **What is stored of a collection.** Objects are added to a model, removed, added again and
saved, in any order, and nothing else writes to the model. After every save that succeeds, the model
stores the objects of its collection that were not queued for removal, under their classes and ids,
and no object that it has handed back. That is the whole collection just if no object in it was queued:
one that was removed and added again since the last save is lost. -/
theorem Reachable.inventory_saveModel (hk : k.Storable) (hs : Reachable k s) {m m' : Model}
    (hobjects : m.objects = []) (horphans : m.orphans = [])
    (hnew : ∀ model, m.id = some model → s.store.findObjects model = []) {S : Session}
    (hrun : Session.Run ⟨s, m, []⟩ S) {model : Int}
    (hsave : saveModel S.model S.service = ((m', .ok model), s')) :
    m'.id = some model ∧
      (∃ ps, ps.Perm (S.model.objects.map (·.giveTo model)) ∧
        List.Forall₂ (Object.SavedAs model) ps m'.objects) ∧
      (∀ id t, (id, t) ∈ s'.store.findObjects model ↔
        (∃ o ∈ m'.objects, o.id = some id ∧ o.cimType = t) ∧ ⟨t, id⟩ ∉ S.model.orphans) ∧
      (∀ o ∈ S.inHand, ∀ id t, o.id = some id → (id, t) ∉ s'.store.findObjects model) ∧
      ((∀ id t, (id, t) ∈ s'.store.findObjects model ↔
          ∃ o ∈ m'.objects, o.id = some id ∧ o.cimType = t) ↔
        ∀ o ∈ S.model.objects, ∀ id, o.id = some id → ⟨o.cimType, id⟩ ∉ S.model.orphans) := by
  have hinv := (Session.Inv.start hk hs hobjects horphans hnew).run hk hrun
  obtain ⟨hinv', hok⟩ := hinv.save hk hsave
  obtain ⟨hid, hsaved, hsource, hgrown, hstored⟩ := hok model rfl
  have hlisting : ∀ id t, (id, t) ∈ s'.store.findObjects model ↔
      (∃ o ∈ m'.objects, o.id = some id ∧ o.cimType = t) ∧ ⟨t, id⟩ ∉ S.model.orphans := by
    intro id t
    rw [← mem_entriesOf]
    exact hstored (id, t)
  refine ⟨hid, hsaved, hlisting, ?_, ?_⟩
  · intro o ho id t hoid hin
    have hmem := mem_entriesOf.mpr ((hlisting id t).mp hin).1
    exact hinv'.disjoint hmem (mem_entriesOf.mpr ⟨o, ho, hoid, rfl⟩) rfl
  · constructor
    · intro hexact o ho id hoid
      have hmem := hgrown _ (mem_entriesOf.mpr ⟨o, ho, hoid, rfl⟩)
      exact ((hlisting id o.cimType).mp ((hexact id _).mpr (mem_entriesOf.mp hmem))).2
    · intro hnone id t
      rw [hlisting]
      refine and_iff_left_of_imp fun hin => ?_
      -- An entry that the save brought in is newer than everything in the queue.
      rcases hsource _ (mem_entriesOf.mpr hin) with hold | hlt
      · obtain ⟨o, ho, hoid, rfl⟩ := mem_entriesOf.mp hold
        exact hnone o ho id hoid
      · intro hqueued
        have := hinv.queued _ hqueued
        simp only at hlt this
        omega

end Service

namespace SmallGrid

def busbar : Object := object .busbarSection "_b" [("ipMax", "2.5")]

/-- A session with a busbar in a new model. -/
def filled : Session := ⟨.opened .standard, (Model.named "grid").add busbar, []⟩

/-- The session when the model has been saved. -/
def saved : Session :=
  { filled with
    model := (Service.saveModel filled.model filled.service).1.1
    service := (Service.saveModel filled.model filled.service).2 }

/-- The busbar as the save has left it. -/
def storedBusbar : Object := { busbar with id := some 1, model := some 1 }

/-- The session when the busbar has been removed. -/
def emptied : Session :=
  { saved with
    model := { saved.model with objects := [], orphans := [⟨"BusbarSection", 1⟩] }
    inHand := [storedBusbar] }

/-- The session when the busbar has been added again. -/
def refilled : Session := { emptied with model := emptied.model.add storedBusbar, inHand := [] }

theorem run_refilled : Session.Run ⟨.opened .standard, .named "grid", []⟩ refilled := by
  have hadd : Session.Step ⟨.opened .standard, .named "grid", []⟩ filled := .add busbar rfl
  have hsave : Session.Step filled saved := .save
  have hremove : saved.model.remove "_b" = some (storedBusbar, emptied.model) := by decide +kernel
  have hempty : Session.Step saved emptied := .remove hremove
  have hhand : emptied.inHand = [] ++ storedBusbar :: [] := rfl
  have hback : Session.Step emptied refilled := .addBack hhand rfl rfl
  exact (((Relation.ReflTransGen.single hadd).tail hsave).tail hempty).tail hback

end SmallGrid

namespace Service

/-- A busbar is saved, removed and added again. The next save succeeds and deletes it. -/
theorem Reachable.inventory_saveModel_refilled : ∃ m' s',
    saveModel SmallGrid.refilled.model SmallGrid.refilled.service = ((m', .ok 1), s') ∧
      (∃ o ∈ m'.objects, o.id = some 1 ∧ o.cimType = "BusbarSection") ∧
      (1, "BusbarSection") ∉ s'.store.findObjects 1 := by
  have hok : (saveModel SmallGrid.refilled.model SmallGrid.refilled.service).1.2 = .ok 1 := by
    decide +kernel
  have hmem : ∃ o ∈ (saveModel SmallGrid.refilled.model SmallGrid.refilled.service).1.1.objects,
      o.id = some 1 ∧ o.cimType = "BusbarSection" := by
    decide +kernel
  have hqueued : ⟨"BusbarSection", 1⟩ ∈ SmallGrid.refilled.model.orphans := by
    decide +kernel
  rcases hsave : saveModel SmallGrid.refilled.model SmallGrid.refilled.service with ⟨⟨m', r⟩, s'⟩
  rw [hsave] at hok hmem
  obtain rfl : r = .ok 1 := hok
  obtain ⟨-, -, hlisting, -⟩ := Reachable.inventory_saveModel Catalog.standard_storable
    (Reachable.opened .standard) (m := .named "grid") rfl rfl (fun _ h => nomatch h)
    SmallGrid.run_refilled hsave
  exact ⟨m', s', rfl, hmem, fun hin => ((hlisting 1 "BusbarSection").mp hin).2 hqueued⟩

end Service

end CimStore

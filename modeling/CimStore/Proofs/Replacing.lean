import CimStore.Proofs.Filling
import CimStore.Proofs.Interrupted

/-!
# Objects that come and go

A `Turnover` is a model in use that gets new objects only: objects are added to it and removed from
it, it is saved, and nothing else writes to it.

* `Database.Mirrors`: what is stored of the model are the objects of a list. Every step keeps this
  of the collection and the objects removed since the last save that succeeded;
* `Service.Reachable.saveModel_ok_iff`: saving succeeds just if the collection has no rdf:ID twice
  and no new object has the rdf:ID of a stored object that has been removed since.

The rows of removed objects stay until the collection has been saved. So an object can be replaced
by a new one with its rdf:ID if the model is saved in between.
-/

namespace CimStore

/-- What the store keeps an object by, and its class. -/
def Object.heading (o : Object) : Option Int × String × CimClass := (o.id, o.rdfid, o.cls)

theorem Object.heading_eq_iff {a b : Object} :
    a.heading = b.heading ↔ a.id = b.id ∧ a.rdfid = b.rdfid ∧ a.cls = b.cls := by
  simp only [heading, Prod.mk.injEq]

theorem map_heading_giveTo (os : List Object) (model : Int) :
    (os.map (·.giveTo model)).map Object.heading = os.map Object.heading := by
  rw [List.map_map]
  rfl

namespace Database

/-- What is stored of the model are the objects of the list that have an id; none if the model has
no id itself. -/
structure Mirrors (db : Database) (model? : Option Int) (os : List Object) : Prop where
  stored : ∀ o ∈ os, ∀ id, o.id = some id → ∃ model st, model? = some model ∧
    db.objects.get? id = some st ∧ st.model = model ∧ st.rdfid = o.rdfid ∧ st.cimType = o.cimType
  listed : ∀ model, model? = some model → ∀ id st, db.objects.get? id = some st →
    st.model = model → ∃ o ∈ os, o.id = some id
  nodup : (os.filterMap (·.id)).Nodup

variable {k : Catalog} {db db' : Database} {model? : Option Int} {model : Int} {o : Object}
  {os os' ps : List Object}

namespace Mirrors

/-- The order of the objects does not count, nor do their values. -/
theorem of_perm (h : db.Mirrors model? os)
    (hperm : (os.map Object.heading).Perm (ps.map Object.heading)) : db.Mirrors model? ps where
  stored o ho id hid := by
    obtain ⟨a, ha, heq⟩ := List.mem_map.mp (hperm.mem_iff.mpr (List.mem_map_of_mem ho))
    obtain ⟨haid, hardfid, hacls⟩ := Object.heading_eq_iff.mp heq
    have hstored := h.stored a ha id (haid.trans hid)
    rwa [hardfid, Object.cimType, hacls] at hstored
  listed model hmodel id st hst howner := by
    obtain ⟨a, ha, hid⟩ := h.listed model hmodel id st hst howner
    obtain ⟨o, ho, heq⟩ := List.mem_map.mp (hperm.mem_iff.mp (List.mem_map_of_mem ha))
    exact ⟨o, ho, (Object.heading_eq_iff.mp heq).1.trans hid⟩
  nodup := by
    have hids := hperm.filterMap (·.1)
    rw [List.filterMap_map, List.filterMap_map] at hids
    exact hids.nodup_iff.mp h.nodup

/-- Only what is stored of the model counts. -/
theorem congr (h : db.Mirrors model? os) (hsame : ∀ model, model? = some model → ∀ id st,
    st.model = model → (db'.objects.get? id = some st ↔ db.objects.get? id = some st)) :
    db'.Mirrors model? os where
  stored o ho id hid := by
    obtain ⟨model, st, hmodel, hst, howner, hrest⟩ := h.stored o ho id hid
    exact ⟨model, st, hmodel, (hsame model hmodel id st howner).mpr hst, howner, hrest⟩
  listed model hmodel id st hst howner :=
    h.listed model hmodel id st ((hsame model hmodel id st howner).mp hst) howner
  nodup := h.nodup

/-- A new object is not stored yet. -/
theorem add (h : db.Mirrors model? os) (ho : o.id = none) : db.Mirrors model? (o :: os) where
  stored := List.forall_mem_cons.mpr ⟨fun id hid => (nomatch ho.symm.trans hid), h.stored⟩
  listed model hmodel id st hst howner := by
    obtain ⟨a, ha, hid⟩ := h.listed model hmodel id st hst howner
    exact ⟨a, List.mem_cons_of_mem _ ha, hid⟩
  nodup := by
    rw [List.filterMap_cons_none ho]
    exact h.nodup

theorem id_eq_none (h : db.Mirrors none os) : ∀ o ∈ os, o.id = none := by
  intro o ho
  by_contra hsome
  obtain ⟨id, hid⟩ := Option.ne_none_iff_exists'.mp hsome
  obtain ⟨model, -, hmodel, -⟩ := h.stored o ho id hid
  exact nomatch hmodel

/-- A model that gets its first id has no stored objects. -/
theorem nameModel (h : db.Mirrors model? os) (hs : db.Sound k)
    (hid : model? = some model ∨ model? = none ∧ model = db.lastModel + 1) (name : Option String) :
    (db.nameModel model name).Mirrors (some model) os := by
  rcases hid with rfl | ⟨rfl, rfl⟩
  · exact h.congr fun _ _ _ _ _ => .rfl
  · refine ⟨fun o ho id hid => ?_, ?_, h.nodup⟩
    · exact nomatch (h.id_eq_none o ho).symm.trans hid
    · rintro _ ⟨⟩ id st hst howner
      obtain ⟨name, hname⟩ := hs.owner hst
      have hle := hs.model_le hname
      omega

/-- **Stored objects have different rdf:IDs.** -/
theorem nodup_rdfids (h : db.Mirrors model? os) (hs : db.Sound k) :
    ((os.filter (·.id.isSome)).map (·.rdfid)).Nodup := by
  have hids := List.pairwise_filterMap.mp h.nodup
  apply List.pairwise_map.mpr
  apply List.pairwise_filter.mpr
  refine hids.imp_of_mem fun {a b} ha hb hne hasome hbsome heq => ?_
  obtain ⟨i, hi⟩ := Option.isSome_iff_exists.mp hasome
  obtain ⟨j, hj⟩ := Option.isSome_iff_exists.mp hbsome
  obtain ⟨model, st, hmodel, hst, howner, hrdfid, -⟩ := h.stored a ha i hi
  obtain ⟨model', st', hmodel', hst', howner', hrdfid', -⟩ := h.stored b hb j hj
  obtain rfl : model = model' := Option.some.inj (hmodel.symm.trans hmodel')
  exact hne i hi j hj (hs.unique hst hst' (howner.trans howner'.symm)
    (hrdfid.trans (heq.trans hrdfid'.symm)))

/-- An object is stored under its own id or under a new one, so no other object has the id. -/
theorem id_ne_of_stores {id : Int} (h : db.Mirrors (some model) (o :: os)) (hs : db.Sound k)
    (hstores : db.Stores o model id db') : ∀ a ∈ os, a.id ≠ some id := by
  intro a ha haid
  rcases hstores.id_eq with hid | ⟨-, hnew⟩
  · have hnodup := h.nodup
    rw [List.filterMap_cons_some hid, List.nodup_cons] at hnodup
    exact hnodup.1 (List.mem_filterMap.mpr ⟨a, ha, haid⟩)
  · obtain ⟨-, st, -, hst, -⟩ := h.stored a (List.mem_cons_of_mem _ ha) id haid
    have hle := hs.object_le hst
    omega

/-- **Storing a listed object keeps the mirror.** -/
theorem stores {id : Int} (h : db.Mirrors (some model) (o :: os)) (hs : db.Sound k)
    (hstores : db.Stores o model id db') :
    db'.Mirrors (some model) ({ o with id := some id } :: os) := by
  have hget := hstores.get?_objects
  have hother := h.id_ne_of_stores hs hstores
  refine ⟨List.forall_mem_cons.mpr ⟨fun i hi => ?_, fun a ha i hi => ?_⟩, ?_, ?_⟩
  · obtain rfl : id = i := Option.some.inj hi
    refine ⟨model, _, rfl, (hget id).trans (if_pos rfl), overwrite_model .., overwrite_rdfid .., ?_⟩
    rw [overwrite_cimType]
    cases hold : db.objects.get? id with
    | none => rfl
    | some old =>
      -- Only an object that came with the id is stored over another.
      rcases hstores.id_eq with hid | ⟨-, hnew⟩
      · obtain ⟨-, st, -, hst, -, -, htype⟩ := h.stored o (List.mem_cons_self ..) id hid
        rw [hold, Option.some.injEq] at hst
        exact hst ▸ htype
      · have hle := hs.object_le hold
        omega
  · obtain ⟨n, st, hn, hst, hrest⟩ := h.stored a (List.mem_cons_of_mem _ ha) i hi
    have hne : id ≠ i := fun heq => hother a ha (heq ▸ hi)
    exact ⟨n, st, hn, ((hget i).trans (if_neg hne)).trans hst, hrest⟩
  · intro n hn i st hst howner
    rw [hget] at hst
    by_cases heq : id = i
    · exact ⟨_, List.mem_cons_self .., congrArg some heq⟩
    · rw [if_neg heq] at hst
      obtain ⟨a, ha, hai⟩ := h.listed n hn i st hst howner
      rcases List.mem_cons.mp ha with rfl | ha
      · rcases hstores.id_eq with hid | ⟨hid, -⟩
        · exact absurd (Option.some.inj (hid.symm.trans hai)) heq
        · exact nomatch hid.symm.trans hai
      · exact ⟨a, List.mem_cons_of_mem _ ha, hai⟩
  · show (id :: os.filterMap (·.id)).Nodup
    refine List.nodup_cons.mpr ⟨fun hmem => ?_, ?_⟩
    · obtain ⟨a, ha, hai⟩ := List.mem_filterMap.mp hmem
      exact hother a ha hai
    · exact h.nodup.sublist ((List.sublist_cons_self o os).filterMap _)

/-- Storing some of the objects, one after the other, keeps the mirror. -/
theorem storesAll (h : db.Mirrors (some model) (os ++ ps)) (hs : db.Sound k)
    (hall : StoresAll k model db os os' db') : db'.Mirrors (some model) (os' ++ ps) := by
  induction hall generalizing ps with
  | nil => exact h
  | cons hstores ho _ ih =>
    -- The stored object joins those that are not stored in this run.
    have hrest := ih (h.stores hs hstores |>.of_perm
      (List.Perm.map _ List.perm_middle.symm)) (hs.stores hstores ho)
    exact hrest.of_perm (List.Perm.map _ List.perm_middle)

/-- **Deleting what some of the objects are stored as** leaves a mirror of the others. -/
theorem dropAll {bs : List (String × List Int)} (h : db.Mirrors model? (os ++ ps))
    (hbs : ∀ id t, (∃ b ∈ bs, b.1 = t ∧ id ∈ b.2) ↔ (id, t) ∈ entriesOf ps) :
    (db.dropAll bs).Mirrors model? os := by
  have hnodup := h.nodup
  rw [List.filterMap_append, List.nodup_append] at hnodup
  refine ⟨fun o ho id hid => ?_, fun model hmodel id st hst howner => ?_, hnodup.1⟩
  · obtain ⟨model, st, hmodel, hst, hrest⟩ := h.stored o (List.mem_append_left _ ho) id hid
    refine ⟨model, st, hmodel, ?_, hrest⟩
    rw [get?_dropAll_of_not_mem, hst]
    intro b hb hmem
    obtain ⟨p, hp, hpid, -⟩ := mem_entriesOf.mp ((hbs id b.1).mp ⟨b, hb, rfl, hmem⟩)
    exact hnodup.2.2 id (List.mem_filterMap.mpr ⟨o, ho, hid⟩) id
      (List.mem_filterMap.mpr ⟨p, hp, hpid⟩) rfl
  · have hleft : (id, st.cimType) ∈ (db.dropAll bs).objectsOf model :=
      mem_objectsOf.mpr ⟨st, hst, howner, rfl⟩
    obtain ⟨hbefore, hnot⟩ := mem_objectsOf_dropAll.mp hleft
    obtain ⟨st₀, hst₀, howner₀, htype₀⟩ := mem_objectsOf.mp hbefore
    obtain ⟨o, ho, hid⟩ := h.listed model hmodel id st₀ hst₀ howner₀
    rcases List.mem_append.mp ho with hos | hps
    · exact ⟨o, hos, hid⟩
    · -- An object of the others has been deleted, as it is stored under its class.
      obtain ⟨-, st₁, -, hst₁, -, -, htype₁⟩ := h.stored o ho id hid
      rw [hst₀, Option.some.injEq] at hst₁
      have hentry := mem_entriesOf.mpr ⟨o, hps, hid, (htype₁.symm.trans (hst₁ ▸ htype₀))⟩
      obtain ⟨b, hb, hnamed⟩ := (hbs id st.cimType).mpr hentry
      exact absurd hnamed (hnot b hb)

/-- The database can take the first of the objects if their rdf:IDs are different, and those of the
new ones are not among the rdf:IDs that the other objects are stored with. -/
theorem takes (h : db.Mirrors (some model) (os ++ ps)) (hs : db.Sound k)
    (howner : db.models.contains model = true)
    (hroom : 0 < os.countP (·.id = none) → db.lastObject + os.countP (·.id = none) ≤ maxInteger)
    (hdistinct : (os.map (·.rdfid)).Nodup)
    (hfree : ∀ o ∈ os, o.id = none → ∀ p ∈ ps, p.id ≠ none → p.rdfid ≠ o.rdfid) :
    db.Takes model os where
  owner := howner
  given o ho id hid := by
    obtain ⟨-, st, -, hst, -⟩ := h.stored o (List.mem_append_left _ ho) id hid
    exact hs.object_le hst
  room := hroom
  distinct := hdistinct
  free := by
    intro j b hb hm o ho heq
    obtain ⟨a, ha, haid⟩ := h.listed model rfl j b hb hm
    obtain ⟨-, st, -, hst, -, hardfid, -⟩ := h.stored a ha j haid
    rw [hb, Option.some.injEq] at hst
    have hsame : a.rdfid = o.rdfid := hardfid.symm.trans (hst ▸ heq)
    rcases List.mem_append.mp ha with ha | ha
    · exact List.inj_on_of_nodup_map hdistinct ha ho hsame ▸ haid
    · cases hid : o.id with
      | none => exact absurd hsame (hfree o ho hid a ha (by simp [haid]))
      | some i =>
        obtain ⟨n, sto, hn, hsto, hown, hrdfid, -⟩ := h.stored o (List.mem_append_left _ ho) i hid
        obtain rfl := Option.some.inj hn
        rw [hs.unique hsto hb (hown.trans hm.symm) (hrdfid.trans heq.symm)]

end Mirrors

end Database

/-! ## Saves that succeed -/

namespace Service

variable {k : Catalog} {s s' : Service}

/-- A model is stored if it has an id or there is one left for it. -/
theorem exists_persist {m : Model} (hroom : m.id = none → s.store.db.lastModel < maxInteger) :
    ∃ id s', persist m s = ((m.setId id, .ok id), s') := by
  cases hid : m.id with
  | none =>
    obtain ⟨s', hpersist, -⟩ := persist_new hid (hroom hid)
    exact ⟨_, s', hpersist⟩
  | some id =>
    rcases hpersist : persist m s with ⟨⟨m', r⟩, s'⟩
    cases r with
    | error e => exact nomatch (persist_error hpersist).2.symm.trans hid
    | ok i =>
      obtain ⟨-, rfl, -⟩ := persist_ok hpersist
      exact ⟨i, s', rfl⟩

/-- Orphans are deleted by their own classes. -/
theorem exists_orphan_of_mem {orphans : List Orphan} {b : String × List Int}
    (hb : b ∈ (orphansByType orphans).entries) : ∃ o ∈ orphans, o.cimType = b.1 := by
  obtain ⟨e, he⟩ := List.exists_mem_of_ne_nil _ (mem_entries_idsByType.mp hb).1
  obtain ⟨hmem, htype⟩ := List.mem_filter.mp he
  obtain ⟨o, ho, rfl⟩ := List.mem_map.mp hmem
  exact ⟨o, ho, of_decide_eq_true htype⟩

/-- **A model is saved** if its objects can be taken and all classes are known. -/
theorem saveModel_takes (hk : k.Storable) (hs : s.store.classes = k) {m : Model}
    (hroom : m.id = none → s.store.db.lastModel < maxInteger)
    (hobjects : ∀ o ∈ m.objects, k.get? o.cimType = some o.cls)
    (horphans : ∀ o ∈ m.orphans, k.get? o.cimType ≠ none)
    (htakes : ∀ model, m.id = some model ∨ m.id = none ∧ model = s.store.db.lastModel + 1 →
      (s.store.db.nameModel model m.name).Takes model m.objects) :
    ∃ m' model s', saveModel m s = ((m', .ok model), s') := by
  obtain ⟨model, s₁, hpersist⟩ := exists_persist hroom
  obtain ⟨hid, -, hstore₁⟩ := persist_ok hpersist
  have hclasses₁ : s₁.store.classes = k := by rw [hstore₁]; exact hs
  have hgiven : (s₁.store.db).Takes model (m.objects.map (·.giveTo model)) := by
    have := (List.append_nil m.objects).symm ▸ htakes model hid
    rw [hstore₁]
    simpa using Database.Takes.giveTo this
  have hknown : ∀ o ∈ m.objects.map (·.giveTo model), k.get? o.cimType = some o.cls :=
    List.forall_mem_map.mpr hobjects
  obtain ⟨os, s₂, hbatches⟩ := saveBatches_groupByType hclasses₁ hknown hgiven
  obtain ⟨-, -, -, -, -, -, -, -, -, hstore₂⟩ := saveBatches_spec hk hclasses₁ hbatches
  have hclasses₂ : s₂.store.classes = k := by rw [hstore₂]; exact hclasses₁
  rcases hdelete : deleteAll (orphansByType m.orphans).entries s₂ with ⟨r, s₃⟩
  obtain ⟨done, rest, hentries, -, ⟨rfl, -⟩ | ⟨-, b, hb, hnone⟩⟩ :=
    deleteAll_cases hk hclasses₂ hdelete
  · refine ⟨{ m.setId model with objects := os, orphans := [] }, model, s₃, ?_⟩
    unfold saveModel
    rw [bind_eq hpersist]
    show (saveBatches model (groupByType (m.objects.map (·.giveTo model))) >>= _) _ = _
    rw [bind_eq hbatches]
    show (deleteAll (orphansByType m.orphans).entries >>= _) _ = _
    rw [bind_eq hdelete]
    rfl
  · obtain ⟨o, ho, htype⟩ := exists_orphan_of_mem (hentries ▸ List.mem_append_right _ hb)
    exact absurd (htype ▸ hnone) (horphans o ho)

end Service

/-! ## Turnovers -/

/-- A model in use, the service that saves it, and the objects that have been removed since the last
save that succeeded. -/
structure Turnover where
  service : Service
  model : Model
  removed : List Object

namespace Turnover

/-- The turnover after a save. -/
def saved (s : Turnover) : Turnover where
  service := (Service.saveModel s.model s.service).2
  model := (Service.saveModel s.model s.service).1.1
  removed := match (Service.saveModel s.model s.service).1.2 with
    | .ok _ => []
    | .error _ => s.removed

/-- What can happen to a model that gets new objects of known classes and that only its owner writes
to. -/
inductive Step (k : Catalog) : Turnover → Turnover → Prop
  | add {s : Turnover} (o : Object) : o.id = none → k.get? o.cimType = some o.cls →
      Step k s { s with model := s.model.add o }
  | remove {s : Turnover} {rdfid : String} {o : Object} {m : Model} :
      s.model.remove rdfid = some (o, m) →
      Step k s { s with model := m, removed := s.removed ++ [o] }
  /-- The model is saved, with or without success. -/
  | save {s : Turnover} : Step k s s.saved
  /-- The store is used otherwise, and what it has of the model stays. -/
  | elsewhere {s : Turnover} (op : Op) :
      (∀ model, s.model.id = some model → ∀ id st, st.model = model →
        ((op.perform s.service).store.db.objects.get? id = some st ↔
          s.service.store.db.objects.get? id = some st)) →
      Step k s { s with service := op.perform s.service }

/-- The turnover is brought from one state to another by any number of steps. -/
def Run (k : Catalog) : Turnover → Turnover → Prop := Relation.ReflTransGen (Step k)

/-- There are ids left for all objects that have none, and for the model if it has none. -/
structure HasRoom (s : Turnover) : Prop where
  model : s.model.id = none → s.service.store.db.lastModel < maxInteger
  objects : s.service.store.db.lastObject + s.model.objects.countP (·.id = none) ≤ maxInteger

/-- What holds all through a turnover. -/
structure Inv (k : Catalog) (s : Turnover) : Prop where
  sound : s.service.store.Sound k
  known : ∀ o ∈ s.model.objects ++ s.removed, k.get? o.cimType = some o.cls
  /-- The queue has the removed objects that are stored. -/
  queue : s.model.orphans = (entriesOf s.removed).map fun e => ⟨e.2, e.1⟩
  mirrors : s.service.store.db.Mirrors s.model.id (s.model.objects ++ s.removed)

variable {k : Catalog} {s s' : Turnover}

theorem exists_objects_add (m : Model) (o : Object) :
    ∃ o', (m.add o).objects = m.objects ++ [o'] ∧ o'.heading = o.heading := by
  unfold Model.add
  cases m.id with
  | none => exact ⟨o, rfl, rfl⟩
  | some id => exact ⟨o.giveTo id, rfl, rfl⟩

theorem Inv.add (h : Inv k s) {o : Object} (hid : o.id = none)
    (ho : k.get? o.cimType = some o.cls) : Inv k { s with model := s.model.add o } := by
  obtain ⟨o', hobjects, hheading⟩ := exists_objects_add s.model o
  obtain ⟨hid', -, hcls⟩ := Object.heading_eq_iff.mp hheading
  refine ⟨h.sound, fun a ha => ?_, h.queue, ?_⟩
  · simp only [hobjects, List.append_assoc, List.mem_append, List.mem_singleton] at ha
    rcases ha with ha | rfl | ha
    · exact h.known a (List.mem_append_left _ ha)
    · rw [Object.cimType, hcls]
      exact ho
    · exact h.known a (List.mem_append_right _ ha)
  · show s.service.store.db.Mirrors s.model.id ((s.model.add o).objects ++ s.removed)
    rw [hobjects, List.append_assoc]
    exact (h.mirrors.add (hid'.trans hid)).of_perm (List.perm_middle.symm.map _)

theorem Inv.remove (h : Inv k s) {rdfid : String} {o : Object} {m : Model}
    (hrem : s.model.remove rdfid = some (o, m)) :
    Inv k { s with model := m, removed := s.removed ++ [o] } := by
  obtain ⟨o, hfind, heq⟩ := Option.map_eq_some_iff.mp hrem
  obtain ⟨rfl, rfl⟩ := Prod.mk.inj heq
  have hperm : (s.model.objects ++ s.removed).Perm
      (Model.withoutFirst rdfid s.model.objects ++ (s.removed ++ [o])) := by
    refine ((Session.perm_withoutFirst hfind).append_right _).trans ?_
    rw [← List.append_assoc]
    exact List.perm_append_singleton .. |>.symm
  refine ⟨h.sound, fun a ha => h.known a (hperm.mem_iff.mpr ha), ?_,
    h.mirrors.of_perm (hperm.map _)⟩
  show _ = (entriesOf (s.removed ++ [o])).map _
  rw [entriesOf_append, List.map_append, ← h.queue]
  cases hid : o.id with
  | none => simp [entriesOf, Object.entry?, hid]
  | some id => simp [entriesOf, Object.entry?, hid]

theorem Inv.elsewhere (h : Inv k s) (hk : k.Storable) (op : Op)
    (hsame : ∀ model, s.model.id = some model → ∀ id st, st.model = model →
      ((op.perform s.service).store.db.objects.get? id = some st ↔
        s.service.store.db.objects.get? id = some st)) :
    Inv k { s with service := op.perform s.service } where
  sound := Service.perform_keeps (Store.runInvariant_sound hk) op h.sound
  known := h.known
  queue := h.queue
  mirrors := h.mirrors.congr hsame

/-- Every class in the queue is known. -/
theorem Inv.orphans (h : Inv k s) : ∀ q ∈ s.model.orphans, k.get? q.cimType ≠ none := by
  intro q hq
  rw [h.queue] at hq
  obtain ⟨⟨id, t⟩, he, rfl⟩ := List.mem_map.mp hq
  obtain ⟨o, ho, -, rfl⟩ := mem_entriesOf.mp he
  rw [h.known o (List.mem_append_right _ ho)]
  exact Option.some_ne_none _

theorem Inv.mem_orphans (h : Inv k s) {id : Int} {t : String} :
    ⟨t, id⟩ ∈ s.model.orphans ↔ (id, t) ∈ entriesOf s.removed := by
  rw [h.queue, List.mem_map]
  constructor
  · rintro ⟨e, he, heq⟩
    obtain ⟨rfl, rfl⟩ := Orphan.mk.inj heq
    exact he
  · exact fun he => ⟨_, he, rfl⟩

/-- The objects are mirrored when some of them have been stored. -/
theorem Inv.stored (h : Inv k s) {model : Int} {pre pre' post post' : List Object} {db : Database}
    (hid : s.model.id = some model ∨
      s.model.id = none ∧ model = s.service.store.db.lastModel + 1)
    (hperm : (pre ++ post).Perm (s.model.objects.map (·.giveTo model)))
    (hpost : post'.map (·.giveTo model) = post.map (·.giveTo model))
    (hall : Database.StoresAll k model (s.service.store.db.nameModel model s.model.name)
      (pre.map (·.giveTo model)) pre' db) :
    db.Mirrors (some model) (pre' ++ (post' ++ s.removed)) := by
  have hheading : post.map Object.heading = post'.map Object.heading := by
    rw [← map_heading_giveTo post model, ← map_heading_giveTo post' model, hpost]
  have hmoved : ((s.model.objects ++ s.removed).map Object.heading).Perm
      ((pre.map (·.giveTo model) ++ (post' ++ s.removed)).map Object.heading) := by
    have hheadings := hperm.map Object.heading
    rw [map_heading_giveTo, List.map_append, hheading] at hheadings
    rw [List.map_append, List.map_append, List.map_append, map_heading_giveTo, ← List.append_assoc]
    exact hheadings.symm.append_right _
  have hnamed := h.mirrors.nameModel h.sound.db hid s.model.name
  exact (hnamed.of_perm hmoved).storesAll (h.sound.db.nameModel ..) hall

/-- Saved objects are of known classes, as they keep their class. -/
theorem Inv.known_of_stored (h : Inv k s) {model : Int} {pre pre' post post' : List Object}
    {db₁ db : Database} (hperm : (pre ++ post).Perm (s.model.objects.map (·.giveTo model)))
    (hpost : post'.map (·.giveTo model) = post.map (·.giveTo model))
    (hall : Database.StoresAll k model db₁ (pre.map (·.giveTo model)) pre' db) {o : Object}
    (ho : o ∈ pre' ++ post') : k.get? o.cls.name = some o.cls := by
  have hbefore : ∀ b ∈ pre ++ post, k.get? b.cls.name = some b.cls := by
    intro b hb
    obtain ⟨a, ha, rfl⟩ := List.mem_map.mp (hperm.mem_iff.mp hb)
    exact h.known a (List.mem_append_left _ ha)
  rcases List.mem_append.mp ho with ho | ho
  · obtain ⟨b, hb, _, rfl, -⟩ := hall.exists_savedAs ho
    obtain ⟨c, hc, rfl⟩ := List.mem_map.mp hb
    exact hbefore c (List.mem_append_left _ hc)
  · have hmem : o.giveTo model ∈ post.map (·.giveTo model) := hpost ▸ List.mem_map_of_mem ho
    obtain ⟨b, hb, heq⟩ := List.mem_map.mp hmem
    have hcls : (b.giveTo model).cls = (o.giveTo model).cls := by rw [heq]
    exact hcls ▸ hbefore b (List.mem_append_right _ hb)

/-- **Saving keeps the invariant.** -/
theorem Inv.save (h : Inv k s) (hk : k.Storable) : Inv k s.saved := by
  rcases hsave : Service.saveModel s.model s.service with ⟨⟨m', r⟩, out⟩
  have hsound : out.store.Sound k := by
    have := Service.Keeps.saveModel (Store.invariant_sound hk) s.model s.service h.sound
    rwa [hsave] at this
  simp only [saved, hsave]
  rcases Service.saveModel_spec hk h.sound.classes hsave with ⟨e, rfl, rfl, hnone⟩ |
    ⟨model, pre, pre', post, post', db, done, rest, hid, hid', -, hperm, hobjects, hpost, hall,
      hentries, hstore, hcase⟩
  · refine ⟨hsound, h.known, h.queue, h.mirrors.congr fun model hmodel => ?_⟩
    exact nomatch hnone.symm.trans hmodel
  have hstored := h.stored hid hperm hpost hall
  have hdb : out.store.db = db.dropAll done := congrArg Store.db hstore
  have hknown : ∀ o ∈ m'.objects, k.get? o.cimType = some o.cls := by
    intro o ho
    rw [Object.cimType, h.known_of_stored hperm hpost hall (hobjects ▸ ho)]
  rcases hcase with ⟨⟨e, rfl⟩, horphans, hdone⟩ | ⟨rfl, rfl, rfl, horphans⟩
  · obtain rfl : done = [] := by
      rcases hdone with hdone | ⟨b, hb, hnone⟩
      · exact hdone
      · obtain ⟨q, hq, htype⟩ :=
          Service.exists_orphan_of_mem (hentries ▸ List.mem_append_right _ hb)
        exact absurd (htype ▸ hnone) (h.orphans q hq)
    refine ⟨hsound, fun o ho => ?_, horphans.trans h.queue, ?_⟩
    · rcases List.mem_append.mp ho with ho | ho
      · exact hknown o ho
      · exact h.known o (List.mem_append_right _ ho)
    · show out.store.db.Mirrors m'.id (m'.objects ++ s.removed)
      rw [hid', hdb, hobjects, List.append_assoc]
      exact hstored
  · obtain rfl : post' = [] := by simpa using hpost
    rw [List.append_nil] at hentries hobjects
    refine ⟨hsound, fun o ho => hknown o (by simpa using ho), horphans, ?_⟩
    show out.store.db.Mirrors m'.id (m'.objects ++ [])
    rw [hid', hdb, hobjects, List.append_nil]
    refine hstored.dropAll fun id t => ?_
    rw [← hentries, List.nil_append, Service.mem_orphansByType, h.mem_orphans]

theorem Inv.step (h : Inv k s) (hk : k.Storable) (hstep : Step k s s') : Inv k s' := by
  cases hstep with
  | add o hid ho => exact h.add hid ho
  | remove hrem => exact h.remove hrem
  | save => exact h.save hk
  | elsewhere op hsame => exact h.elsewhere hk op hsame

theorem Inv.run (h : Inv k s) (hk : k.Storable) (hrun : Run k s s') : Inv k s' := by
  induction hrun with
  | refl => exact h
  | tail _ hstep ih => exact ih.step hk hstep

/-- A turnover begins with an empty model of which nothing is stored. -/
theorem Inv.start (hk : k.Storable) {service : Service} (hs : service.Reachable k) {m : Model}
    (hobjects : m.objects = []) (horphans : m.orphans = [])
    (hnew : ∀ model, m.id = some model → service.store.findObjects model = []) :
    Inv k ⟨service, m, []⟩ := by
  have hnone : m.objects ++ [] = [] := by rw [hobjects, List.append_nil]
  refine ⟨hs.sound hk, ?_, horphans, ?_, ?_, ?_⟩
  · simp [hobjects]
  · simp [hobjects]
  · intro model hmodel id st hst howner
    have hlisted : (id, st.cimType) ∈ service.store.findObjects model :=
      Database.mem_objectsOf.mpr ⟨st, hst, howner, rfl⟩
    rw [hnew model hmodel] at hlisted
    exact absurd hlisted List.not_mem_nil
  · simp [hobjects]

/-- The rdf:IDs of the collection are different, and no new object has that of a stored object
removed since the last save that succeeded. -/
structure Free (s : Turnover) : Prop where
  distinct : (s.model.objects.map (·.rdfid)).Nodup
  removed : ∀ o ∈ s.model.objects, o.id = none → ∀ r ∈ s.removed, r.id ≠ none → r.rdfid ≠ o.rdfid

/-- **A free collection is saved.** -/
theorem Inv.saveModel_ok (h : Inv k s) (hk : k.Storable) (hroom : s.HasRoom) (hfree : s.Free) :
    ∃ m' model out, Service.saveModel s.model s.service = ((m', .ok model), out) := by
  refine Service.saveModel_takes hk h.sound.classes hroom.model
    (fun o ho => h.known o (List.mem_append_left _ ho)) h.orphans fun model hid => ?_
  exact (h.mirrors.nameModel h.sound.db hid s.model.name).takes (h.sound.db.nameModel ..)
    (SortedMap.contains_insert.mpr (.inl rfl)) (fun _ => hroom.objects) hfree.distinct
    hfree.removed

/-- **A collection that is saved was free.** -/
theorem Inv.free (h : Inv k s) (hk : k.Storable) {m' : Model} {model : Int} {out : Service}
    (hsave : Service.saveModel s.model s.service = ((m', .ok model), out)) : s.Free := by
  rcases Service.saveModel_spec hk h.sound.classes hsave with ⟨e, he, -⟩ |
    ⟨model, pre, pre', post, post', db, done, rest, hid, hid', -, hperm, hobjects, hpost, hall,
      hentries, hstore, ⟨⟨e, he⟩, -⟩ | ⟨-, rfl, -, -⟩⟩
  · exact nomatch he
  · exact nomatch he
  obtain rfl : post' = [] := by simpa using hpost
  have hstored := h.stored hid hperm hpost hall
  -- All objects of the collection are stored now, next to those that were removed.
  have hids : pre'.filter (·.id.isSome) = pre' := by
    refine List.filter_eq_self.mpr fun o' ho' => ?_
    obtain ⟨o, -, id, rfl, -⟩ := hall.exists_savedAs ho'
    rfl
  have hrdfids : (pre'.map (·.rdfid)).Perm (s.model.objects.map (·.rdfid)) := by
    have hsaved : pre'.map (·.rdfid) = (pre.map (·.giveTo model)).map (·.rdfid) := by
      refine map_eq_map_of_forall₂ (hall.savedAs.imp ?_)
      rintro o _ ⟨id, rfl, -⟩
      rfl
    have hgiven : ∀ os : List Object, (os.map (·.giveTo model)).map (·.rdfid) = os.map (·.rdfid) :=
      fun os => List.map_map ..
    rw [List.append_nil] at hperm
    rw [hsaved, hgiven, ← hgiven s.model.objects]
    exact hperm.map _
  have hnodup := hstored.nodup_rdfids (hall.sound (h.sound.db.nameModel ..))
  rw [List.nil_append, List.filter_append, hids, List.map_append, List.nodup_append] at hnodup
  obtain ⟨hdistinct, -, hdisjoint⟩ := hnodup
  refine ⟨hrdfids.nodup_iff.mp hdistinct, fun o ho _ r hr hrid heq => ?_⟩
  refine hdisjoint o.rdfid (hrdfids.mem_iff.mpr (List.mem_map_of_mem ho)) r.rdfid ?_ heq.symm
  have hstored : r.id.isSome = true := by simpa [Option.isSome_iff_ne_none] using hrid
  exact List.mem_map_of_mem (List.mem_filter.mpr ⟨hr, hstored⟩)

end Turnover

namespace Service

variable {k : Catalog} {s s' : Service}

/-- **When a collection is saved.** New objects of known classes are added to a model, objects are
removed and the model is saved, in any order, and nothing else writes to it. As long as there are
ids left, a save succeeds just if no two objects of the collection have one rdf:ID and no new object
has the rdf:ID of a stored object removed since the last save that succeeded. -/
theorem Reachable.saveModel_ok_iff (hk : k.Storable) (hs : Reachable k s) {m : Model}
    (hobjects : m.objects = []) (horphans : m.orphans = [])
    (hnew : ∀ model, m.id = some model → s.store.findObjects model = []) {S : Turnover}
    (hrun : Turnover.Run k ⟨s, m, []⟩ S) (hroom : S.HasRoom) :
    (∃ m' model s', saveModel S.model S.service = ((m', .ok model), s')) ↔ S.Free := by
  have h := (Turnover.Inv.start hk hs hobjects horphans hnew).run hk hrun
  constructor
  · rintro ⟨m', model, s', hsave⟩
    exact h.free hk hsave
  · exact fun hfree => h.saveModel_ok hk hroom hfree

end Service

namespace SmallGrid

/-- A busbar in a model that has been saved. -/
def stocked : Turnover := Turnover.saved ⟨.opened .standard, (Model.named "grid").add busbar, []⟩

/-- The model when the busbar has been removed. -/
def cleared : Turnover :=
  { stocked with
    model := { stocked.model with objects := [], orphans := [⟨"BusbarSection", 1⟩] }
    removed := [storedBusbar] }

/-- A new busbar with the rdf:ID of the one that has been removed. -/
def replaced : Turnover := { cleared with model := cleared.model.add busbar }

/-- The same when the model has been saved in between. -/
def restocked : Turnover := { cleared.saved with model := cleared.saved.model.add busbar }

theorem get?_busbar : Catalog.standard.get? busbar.cimType = some busbar.cls := by decide +kernel

theorem run_cleared :
    Turnover.Run .standard ⟨.opened .standard, .named "grid", []⟩ cleared := by
  have hremove : stocked.model.remove "_b" = some (storedBusbar, cleared.model) := by
    decide +kernel
  have hremoved : stocked.removed = [] := by decide +kernel
  have hcleared : cleared = { stocked with
      model := cleared.model, removed := stocked.removed ++ [storedBusbar] } := by
    rw [hremoved]
    rfl
  rw [hcleared]
  exact ((Relation.ReflTransGen.single (.add busbar rfl get?_busbar)).tail .save).tail
    (.remove hremove)

end SmallGrid

namespace Service

/-- A busbar is removed and, after a save, replaced by a new one with its rdf:ID. -/
theorem Reachable.saveModel_ok_iff_restocked : ∃ m' model s',
    saveModel SmallGrid.restocked.model SmallGrid.restocked.service = ((m', .ok model), s') := by
  refine (Reachable.saveModel_ok_iff Catalog.standard_storable (Reachable.opened .standard)
    (m := .named "grid") rfl rfl (fun _ h => nomatch h)
    ((SmallGrid.run_cleared.tail .save).tail (.add SmallGrid.busbar rfl SmallGrid.get?_busbar))
    ?_).mpr ?_
  · exact ⟨fun _ => by decide +kernel, by decide +kernel⟩
  · exact ⟨by decide +kernel, by decide +kernel⟩

/-- A busbar is removed and replaced by a new one with its rdf:ID. The rdf:IDs of the collection are
different, and the next save fails, as the removed busbar is still stored. -/
theorem saveModel_replaced :
    Turnover.Run .standard ⟨.opened .standard, .named "grid", []⟩ SmallGrid.replaced ∧
      SmallGrid.replaced.HasRoom ∧ (SmallGrid.replaced.model.objects.map (·.rdfid)).Nodup ∧
      (saveModel SmallGrid.replaced.model SmallGrid.replaced.service).1.2 =
        .error (.storage .duplicateIdentity) := by
  refine ⟨SmallGrid.run_cleared.tail (.add SmallGrid.busbar rfl SmallGrid.get?_busbar),
    ⟨fun _ => by decide +kernel, by decide +kernel⟩, by decide +kernel, by decide +kernel⟩

end Service

end CimStore

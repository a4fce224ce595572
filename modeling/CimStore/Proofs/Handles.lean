import CimStore.Proofs.Filling
import CimStore.Proofs.Interrupted
import CimStore.Proofs.Untouched

/-!
# Saving through a handle

A handle is a model value that has an id and nothing else. New objects that are saved through it are
put beside what is stored:

* `Database.StoresAll.get?_of_new`: what was stored stays, whatever came after it;
* `Database.StoresAll.objectsOf_of_new`: the model lists the new objects behind its own;
* `Database.StoresAll.contents_of_ne`: other models have what they had;
* `Service.Joins`: all that such a save does, whether it succeeds or not.

The row of the model is another matter. A save writes the name that comes with the model value, and
a handle has none: the stored name is lost, unless there was none (`Service.Joins.names_kept_iff`).
-/

namespace CimStore

/-! ## New objects beside others -/

namespace Database.StoresAll

variable {k : Catalog} {model : Int} {db db' : Database} {os os' : List Object}

/-- New objects are not stored over others. -/
theorem get?_of_new (h : StoresAll k model db os os' db') (hs : db.Sound k)
    (hnew : ∀ o ∈ os, o.id = none) {id : Int} {st : StoredObject}
    (hst : db.objects.get? id = some st) : db'.objects.get? id = some st := by
  have hother := h.id_ne_of_get? hs.object_le hst fun o ho hid => nomatch (hnew o ho).symm.trans hid
  exact (h.get?_of_not_mem hother).trans hst

/-- The ids that are given ascend. -/
theorem pairwise_entriesOf_of_new (h : StoresAll k model db os os' db')
    (hnew : ∀ o ∈ os, o.id = none) : (entriesOf os').Pairwise (·.1 < ·.1) := by
  have hids : (entriesOf os').map (·.1) = nextIds db.lastObject os.length := by
    have hmap := congrArg (List.filterMap id) (h.ids_of_new hnew).1
    rw [List.filterMap_map, List.filterMap_map] at hmap
    rw [map_fst_entriesOf]
    exact hmap.trans (List.filterMap_some ..)
  refine List.pairwise_map.mp ?_
  rw [hids]
  exact pairwise_nextIds ..

/-- **A model lists new objects behind its own.** -/
theorem objectsOf_of_new (h : StoresAll k model db os os' db') (hs : db.Sound k)
    (hnew : ∀ o ∈ os, o.id = none) :
    db'.objectsOf model = db.objectsOf model ++ entriesOf os' := by
  have hnodup := h.nodup_new hnew
  have hlisted : ∀ {e}, e ∈ entriesOf os' → e ∈ db'.objectsOf model ∧ db.lastObject < e.1 := by
    intro e he
    have hnone : entriesOf os = [] := List.filterMap_eq_nil_iff.mpr fun o ho => by
      rw [Object.entry?, hnew o ho]
      rfl
    obtain ⟨hmem, -, hcase⟩ := h.mem_objectsOf hnodup (by simp [hnone]) hs.object_le he
    exact ⟨hmem, hcase.resolve_left (by simp [hnone])⟩
  have hascending : (db.objectsOf model ++ entriesOf os').Pairwise (·.1 < ·.1) := by
    refine List.pairwise_append.mpr
      ⟨db.pairwise_objectsOf model, h.pairwise_entriesOf_of_new hnew, fun a ha b hb => ?_⟩
    obtain ⟨st, hst, -⟩ := Database.mem_objectsOf.mp ha
    have hle := hs.object_le hst
    have hlt := (hlisted hb).2
    omega
  apply SortedMap.eq_of_mem_iff (db'.pairwise_objectsOf model) hascending
  rintro ⟨id, t⟩
  rw [List.mem_append]
  constructor
  · intro he
    obtain ⟨st, hst, hmodel, htype⟩ := Database.mem_objectsOf.mp he
    by_cases hsaved : some id ∈ os'.map (·.id)
    · obtain ⟨o', ho', hid⟩ := List.mem_map.mp hsaved
      have hentry := mem_entriesOf.mpr ⟨o', ho', hid, rfl⟩
      obtain ⟨st', hst', -, htype'⟩ := Database.mem_objectsOf.mp (hlisted hentry).1
      rw [hst, Option.some.injEq] at hst'
      rw [← htype, hst', htype']
      exact .inr hentry
    · have hsame := h.get?_of_not_mem fun o ho hid => hsaved (List.mem_map.mpr ⟨o, ho, hid⟩)
      exact .inl (Database.mem_objectsOf.mpr ⟨st, hsame.symm.trans hst, hmodel, htype⟩)
  · rintro (he | he)
    · exact h.mem_objectsOf_of_mem he
    · exact (hlisted he).1

/-- **Other models have what they had.** -/
theorem contents_of_ne (h : StoresAll k model db os os' db') (hk : k.Storable) (hs : db.Sound k)
    (hnew : ∀ o ∈ os, o.id = none) {n : Int} (hne : n ≠ model) :
    db'.contents k n = db.contents k n := by
  refine hs.contents_eq (h.sound hs) hk fun id x hx => ?_
  by_cases hsaved : some id ∈ os'.map (·.id)
  · -- A new object is of another model, and before it there was none under its id.
    obtain ⟨st, hst, hmodel⟩ := h.exists_model hsaved
    refine iff_of_false (fun hobj => ?_) fun hobj => ?_
    · obtain ⟨st', hst', -, -, -, hx'⟩ := object?_some hk hobj
      rw [hst, Option.some.injEq] at hst'
      rw [hx, ← hst', hmodel, Option.some.injEq] at hx'
      exact hne hx'
    · obtain ⟨st', hst', -, -, -, hx'⟩ := object?_some hk hobj
      rw [h.get?_of_new hs hnew hst', Option.some.injEq] at hst
      rw [hx, hst, hmodel, Option.some.injEq] at hx'
      exact hne hx'
  · have hsame := h.get?_of_not_mem fun o ho hid => hsaved (List.mem_map.mpr ⟨o, ho, hid⟩)
    rw [object?_congr hsame]

end Database.StoresAll

/-! ## New objects of a stored model -/

namespace Service

variable {k : Catalog} {s s' : Service} {model : Int} {name : Option String} {os : List Object}
  {r : Except Error (List Object)}

/-- What becomes of a store when new objects are saved into a model under its id, and with the name
that the model value has. `r` is what comes back. -/
structure Joins (s : Service) (model : Int) (name : Option String) (os : List Object)
    (r : Except Error (List Object)) (s' : Service) : Prop where
  /-- The model has the name that came with it; the others keep theirs. -/
  names : ∀ n, s'.store.modelName? n = if n = model then some name else s.store.modelName? n
  /-- What was stored is stored as it was. -/
  kept : ∀ id st, s.store.db.objects.get? id = some st → s'.store.db.objects.get? id = some st
  /-- Of other models the same is listed and read. -/
  others : ∀ n, n ≠ model → s.Untouched s' n
  /-- The model has some of the new objects, listed behind those that it had, and each of them is
  found as it was saved. If there was no error these are all, and they come back. -/
  joined : ∃ done rest saved, (done ++ rest).Perm os ∧
    List.Forall₂ (fun o o' => o.SavedAs model o' ∧
      ∃ id, o'.id = some id ∧ s'.Finds model id (o'.reloaded id o'.rdfid model)) done saved ∧
    s'.store.findObjects model = s.store.findObjects model ++ entriesOf saved ∧
    ∀ os', r = .ok os' → rest = [] ∧ os' = saved

/-- The stored names are what they were just if the model had the name already. -/
theorem Joins.names_kept_iff (h : s.Joins model name os r s') :
    (∀ n, s'.store.modelName? n = s.store.modelName? n) ↔
      s.store.modelName? model = some name := by
  constructor
  · intro hkept
    rw [← hkept, h.names, if_pos rfl]
  · intro hname n
    rw [h.names]
    split
    · rename_i heq
      rw [heq, hname]
    · rfl

/-- **New objects are saved beside what is stored.** -/
theorem joins_saveObjects (h : s.store.Sound k) (hk : k.Storable) {m : Model}
    (hid : m.id = some model) (hnew : ∀ o ∈ os, o.id = none) :
    s.Joins model m.name os (saveObjects m os s).1.2 (saveObjects m os s).2 := by
  have h' := Keeps.saveObjects (Store.invariant_sound hk) m os s h
  rcases hsave : saveObjects m os s with ⟨⟨m', r⟩, s'⟩
  rw [hsave] at h'
  rcases saveObjects_spec hk h.classes hsave with ⟨-, -, -, hnone⟩ | ⟨id, done, saved, rest, hid',
    -, hperm, hall, -, hcase⟩
  · cases hid.symm.trans hnone
  obtain rfl : model = id := by
    rcases hid' with hid' | ⟨hnone, -⟩
    · exact Option.some.inj (hid.symm.trans hid')
    · cases hid.symm.trans hnone
  have hsound := h.db.nameModel model m.name
  have hgiven : ∀ o ∈ done.map (·.giveTo model), o.id = none :=
    List.forall_mem_map.mpr fun o ho => hnew o (hperm.mem_iff.mp (List.mem_append_left rest ho))
  have hnames : ∀ n, s'.store.modelName? n =
      if n = model then some m.name else s.store.modelName? n := fun n => by
    unfold Store.modelName?
    rw [hall.models.1, Database.models_nameModel, SortedMap.get?_insert]
    simp only [eq_comm]
  refine ⟨hnames, fun id st hst => hall.get?_of_new hsound hgiven hst, fun n hne => ?_,
    done, rest, saved, hperm, ?_, hall.objectsOf_of_new hsound hgiven, ?_⟩
  · exact .of_contents h h' hk ((hnames n).trans (if_neg hne))
      (hall.contents_of_ne hk hsound hgiven hne)
  · have hplaced := (List.forall₂_and_left _ _).mpr ⟨hgiven, hall.placed hk hsound⟩
    refine (List.forall₂_map_left_iff.mp hplaced).imp ?_
    rintro o _ ⟨hnone, ⟨id, rfl, hfrom⟩, hplaces⟩
    have hloaded := (hplaces hnone id rfl).loaded fun a ha => by simp [hgiven a ha]
    exact ⟨⟨id, rfl, hfrom⟩, id, rfl, (finds_iff h' hk).mpr ⟨hloaded, rfl⟩⟩
  · intro os' hok
    rcases hcase with ⟨e, he⟩ | ⟨hsaved, hrest⟩
    · cases he.symm.trans hok
    · exact ⟨hrest, Except.ok.inj (hok.symm.trans hsaved)⟩

/-- Saving one object is saving a list of one. -/
theorem joins_saveObject {m : Model} {o : Object}
    (h : s.Joins model name [o] (saveObjects m [o] s).1.2 (saveObjects m [o] s).2) :
    s.Joins model name [o] ((saveObject m o s).1.2.map ([·])) (saveObject m o s).2 := by
  rcases hsave : saveObjects m [o] s with ⟨⟨m', r⟩, s'⟩
  rw [hsave] at h
  cases r with
  | error e =>
    have hone : saveObject m o s = ((m', .error e), s') := by
      unfold saveObject
      rw [bind_eq hsave]
      rfl
    rw [hone]
    exact h
  | ok os =>
    -- The list that comes back has one object, which is the last of it.
    obtain ⟨done, rest, saved, hperm, hfound, -, hall⟩ := h.joined
    obtain ⟨rfl, rfl⟩ := hall os rfl
    have hlength : os.length = 1 := by
      rw [← hfound.length_eq, ← List.append_nil done, hperm.length_eq]
      rfl
    obtain ⟨o', rfl⟩ := List.length_eq_one_iff.mp hlength
    have hone : saveObject m o s = ((m', .ok o'), s') := by
      unfold saveObject
      rw [bind_eq hsave]
      rfl
    rw [hone]
    exact h

/-- **What a save through a handle does.** New objects are saved through a handle of a model, one
alone or several. Whether this succeeds or not, everything that was stored stays, and what is added
is added to the model; but the model has no name any more, if it had one. -/
theorem Reachable.joins_withId (hk : k.Storable) (hs : Reachable k s) (model : Int) :
    (∀ os, (∀ o ∈ os, o.id = none) → s.Joins model none os
      (saveObjects (.withId model) os s).1.2 (saveObjects (.withId model) os s).2) ∧
    ∀ o, o.id = none → s.Joins model none [o]
      ((saveObject (.withId model) o s).1.2.map ([·])) (saveObject (.withId model) o s).2 := by
  have h := hs.sound hk
  have hall : ∀ os, (∀ o ∈ os, o.id = none) → s.Joins model none os
      (saveObjects (.withId model) os s).1.2 (saveObjects (.withId model) os s).2 :=
    fun os hnew => joins_saveObjects (m := .withId model) h hk rfl hnew
  exact ⟨hall, fun o hnew => joins_saveObject (hall [o] (List.forall_mem_singleton.mpr hnew))⟩

/-- One more node is saved into the grid. It is found there, and the name of the grid is lost. -/
theorem Reachable.joins_withId_smallGrid :
    SmallGrid.service.store.modelName? 1 = some (some "grid") ∧ ∃ m' o s' id,
      saveObjects (.withId 1) [SmallGrid.node "_n3"] SmallGrid.service = ((m', .ok [o]), s') ∧
        s'.Finds 1 id (o.reloaded id o.rdfid 1) ∧ s'.store.modelName? 1 = some none := by
  have hname : SmallGrid.service.store.modelName? 1 = some (some "grid") := by decide +kernel
  have hok : (saveObjects (.withId 1) [SmallGrid.node "_n3"] SmallGrid.service).1.2.isOk := by
    decide +kernel
  have hjoins := (Reachable.joins_withId Catalog.standard_storable SmallGrid.reachable_service 1).1
    [SmallGrid.node "_n3"] (List.forall_mem_singleton.mpr (by decide +kernel))
  refine ⟨hname, ?_⟩
  rcases hsave : saveObjects (.withId 1) [SmallGrid.node "_n3"] SmallGrid.service with ⟨⟨m', r⟩, s'⟩
  rw [hsave] at hok hjoins
  cases r with
  | error e => exact nomatch hok
  | ok os =>
    obtain ⟨done, rest, saved, hperm, hfound, -, hall⟩ := hjoins.joined
    obtain ⟨rfl, rfl⟩ := hall os rfl
    rw [List.append_nil, List.perm_singleton] at hperm
    subst hperm
    obtain ⟨o, _, ⟨-, id, -, hfinds⟩, hnil, rfl⟩ := List.forall₂_cons_left_iff.mp hfound
    obtain rfl := List.forall₂_nil_left_iff.mp hnil
    exact ⟨m', o, s', id, rfl, hfinds, hjoins.names 1⟩

end Service

end CimStore

import CimStore.Proofs.Deleting
import CimStore.Proofs.RoundTrip

/-!
# Saving over what is stored

A batch may carry any ids. Under an id that is in use an object is overwritten, and the one that was
there decides what is found afterwards:

* an object of the class of the batch gives way to the saved one (`StoresEach.object?_same`);
* an object of another class stays: it takes over the rdf:ID and the model of the saved one, of
  which no more is found (`StoresEach.object?_other`).

`Service.Reachable.read_saveBatch` says this of what is listed and read after a batch.
-/

namespace CimStore

namespace Database.StoresEach

variable {k : Catalog} {db db' : Database} {os os' : List Object} {o : Object} {id model : Int}

/-- **An object is found as it was saved** where nothing was stored, or an object of its class. -/
theorem object?_same (h : StoresEach k db os os' db') (hk : k.Storable)
    (hnodup : (os'.map (·.id)).Nodup) (ho : o ∈ os') (hid : o.id = some id)
    (hmodel : o.model = some model)
    (hsame : ∀ st, db.objects.get? id = some st → st.cimType = o.cimType) :
    db'.object? k id = some (o.reloaded id o.rdfid model) := by
  obtain ⟨i, m, st, hi, hm, hcls, hst, hrdfid, hstm, hrows, htype, -⟩ := h.get?_of_mem hnodup ho
  obtain rfl : i = id := Option.some.inj (hi.symm.trans hid)
  obtain rfl : m = model := Option.some.inj (hm.symm.trans hmodel)
  have hclass : st.cimType = o.cls.name := by
    rw [htype]
    cases hold : db.objects.get? i with
    | none => rfl
    | some old => exact hsame old hold
  rw [object?_eq hk hst hcls hclass ((hrows _).trans (if_pos rfl)), hrdfid, hstm]

/-- **An object of another class stays**, but for its rdf:ID and its model. -/
theorem object?_other (h : StoresEach k db os os' db') (hk : k.Storable)
    (hnodup : (os'.map (·.id)).Nodup) (ho : o ∈ os') (hid : o.id = some id)
    (hmodel : o.model = some model) {y : Object} (hy : db.object? k id = some y)
    (hother : y.cimType ≠ o.cimType) :
    db'.object? k id = some { y with rdfid := o.rdfid, model := some model } := by
  obtain ⟨i, m, st, hi, hm, -, hst, hrdfid, hstm, hrows, htype, -⟩ := h.get?_of_mem hnodup ho
  obtain rfl : i = id := Option.some.inj (hi.symm.trans hid)
  obtain rfl : m = model := Option.some.inj (hm.symm.trans hmodel)
  obtain ⟨old, hold, -, hyold, -⟩ := object?_some hk hy
  rw [hold] at htype hrows
  have hrow : st.rows.get? old.cimType = old.rows.get? old.cimType :=
    (hrows _).trans (if_neg fun heq => hother (hyold.trans heq.symm))
  rw [object?_congr_own hk hold hst htype hrow, hy, hrdfid, hstm]
  rfl

end Database.StoresEach

namespace Service

variable {k : Catalog} {s : Service}

/-- The model is read, and has exactly one object under the id, `x`, with the class that is
listed. -/
def Finds (s : Service) (model id : Int) (x : Object) : Prop :=
  (id, x.cimType) ∈ s.store.findObjects model ∧
    ∃ g s', read model false s = (.ok g, s') ∧ g.objects.filter (fun y => y.id = some id) = [x]

/-- What is found under an id is what is loaded, by the model that owns it. -/
theorem finds_iff (h : s.store.Sound k) (hk : k.Storable) {model id : Int} {x : Object} :
    s.Finds model id x ↔ s.store.db.object? k id = some x ∧ x.model = some model := by
  constructor
  · rintro ⟨hlisted, g, s', hread, hone⟩
    obtain ⟨st, hst, hmodel, -⟩ := Database.mem_objectsOf.mp hlisted
    have hexists : s.store.modelExists model = true :=
      SortedMap.contains_iff.mpr (hmodel ▸ h.db.owner hst)
    obtain ⟨s₂, hread₂, -⟩ := read_unlinked h hk hexists
    obtain rfl : unlinked k s model = g := by simpa [hread₂] using congrArg Prod.fst hread
    rw [objects_unlinked] at hone
    have hx : x ∈ (s.store.db.contents k model).filter fun y => y.id = some id :=
      hone ▸ List.mem_singleton_self x
    obtain ⟨hmem, hid⟩ := List.mem_filter.mp hx
    obtain ⟨i, st', hst', hmodel', hobj⟩ := Database.mem_contents.mp hmem
    obtain ⟨st'', hst'', hi, -, -, hm⟩ := Database.object?_some hk hobj
    rw [hst', Option.some.injEq] at hst''
    obtain rfl : i = id := Option.some.inj (hi.symm.trans (decide_eq_true_eq.mp hid))
    exact ⟨hobj, hm.trans (hst'' ▸ hmodel' ▸ rfl)⟩
  · rintro ⟨hx, hm⟩
    obtain ⟨st, hst, hid, htype, -, hmodel⟩ := Database.object?_some hk hx
    have hown : st.model = model := Option.some.inj (hmodel.symm.trans hm)
    have hexists : s.store.modelExists model = true :=
      SortedMap.contains_iff.mpr (hown ▸ h.db.owner hst)
    obtain ⟨s', hread, -⟩ := read_unlinked h hk hexists
    refine ⟨Database.mem_objectsOf.mpr ⟨st, hst, hown, htype.symm⟩, _, s', hread, ?_⟩
    rw [objects_unlinked, ← hid]
    exact h.db.filter_id_contents hk (Database.mem_contents.mpr ⟨id, st, hst, hown, hx⟩)

/-- `x` is what is found under the id after `o` has been saved under it into the model, and `s` is
the service before. It is an object of the class of `o` just if no other class was listed for the
id. If so, it is `o` as it is loaded; if not, it is the other one, with the rdf:ID of `o`
and in the model. -/
structure Overwrites (s : Service) (model id : Int) (o x : Object) : Prop where
  rdfid : x.rdfid = o.rdfid
  cimType_iff : x.cimType = o.cimType ↔
    ∀ n t, (id, t) ∈ s.store.findObjects n → t = o.cimType
  same : x.cimType = o.cimType →
    x = o.reloaded id o.rdfid model ∧ (o.IsStable → o.IsReadBack x)
  other : ∀ n y, s.Finds n id y → y.cimType ≠ o.cimType →
    x = { y with rdfid := o.rdfid, model := some model }

/-- **What a saved object is found as.** -/
theorem finds_overwrites {s' : Service} (h : s.store.Sound k) (h' : s'.store.Sound k)
    (hk : k.Storable) {db : Database} {os os' : List Object}
    (heach : Database.StoresEach k db os os' s'.store.db) (hdb : db.objects = s.store.db.objects)
    (hnodup : (os'.map (·.id)).Nodup) {o : Object} (ho : o ∈ os') :
    ∃ id model x, o.id = some id ∧ o.model = some model ∧ s'.Finds model id x ∧
      s.Overwrites model id o x := by
  obtain ⟨id, model, -, hid, hmodel, -⟩ := heach.get?_of_mem hnodup ho
  by_cases hother : ∃ y, s.store.db.object? k id = some y ∧ y.cimType ≠ o.cimType
  · obtain ⟨y, hy, hne⟩ := hother
    have hbefore : db.object? k id = some y := (Database.object?_congr (by rw [hdb])).trans hy
    have hx := heach.object?_other hk hnodup ho hid hmodel hbefore hne
    refine ⟨id, model, _, hid, hmodel, (finds_iff h' hk).mpr ⟨hx, rfl⟩, rfl,
      ⟨fun heq => absurd heq hne, fun hall => ?_⟩, fun heq => absurd heq hne, fun n y' hfound _ => ?_⟩
    · obtain ⟨st, hst, -, hyst, -⟩ := Database.object?_some hk hy
      exact hyst.trans (hall st.model _ (Database.mem_objectsOf.mpr ⟨st, hst, rfl, rfl⟩))
    · have hy' := ((finds_iff h hk).mp hfound).1
      rw [hy, Option.some.injEq] at hy'
      rw [hy']
  · simp only [not_exists, not_and, not_not] at hother
    have hsame : ∀ st, s.store.db.objects.get? id = some st → st.cimType = o.cimType := by
      intro st hst
      obtain ⟨_, hcls, -, hy⟩ := h.db.object? hk hst
      have htype := hother _ hy
      exact (hk.name_eq hcls).symm.trans htype
    have hx := heach.object?_same hk hnodup ho hid hmodel fun st hst => hsame st (hdb ▸ hst)
    refine ⟨id, model, _, hid, hmodel, (finds_iff h' hk).mpr ⟨hx, rfl⟩, rfl,
      iff_of_true rfl fun n t hlisted => ?_, fun _ => ⟨rfl, Object.isReadBack_reloaded hid hmodel⟩,
      fun n y hy hne => absurd (hother y ((finds_iff h hk).mp hy).1) hne⟩
    obtain ⟨st, hst, -, rfl⟩ := Database.mem_objectsOf.mp hlisted
    exact hsame st hst

/-- **What a saved batch is found as.** Any objects are saved as a batch of a class, and the ids
that they come back with are different. Each comes back as it was but for its id, and under this id
one object is found in its model: the saved object, or, if another class was listed for the id, the
object that was there before, with the saved rdf:ID. So a saved object keeps its class just if no
other class was listed. -/
theorem Reachable.read_saveBatch (hk : k.Storable) (hs : Reachable k s) {cimType : String}
    {os saved : List Object} {store : Store}
    (hsave : s.store.saveBatch cimType os = ((saved, .ok ()), store))
    (hids : (saved.map (·.id)).Nodup) :
    List.Forall₂ (fun o o' => ∃ model, o.model = some model ∧ o.SavedAs model o') os saved ∧
    ∀ o ∈ saved, ∃ id model x, o.id = some id ∧ o.model = some model ∧ o.cimType = cimType ∧
      Finds { s with store } model id x ∧ s.Overwrites model id o x := by
  have h := hs.sound hk
  obtain ⟨pre, pre', post, r, db', rfl, hbatch, hclass, heach, hpost⟩ :=
    Store.saveBatch_each hk h.classes cimType os
  rw [hsave] at hbatch
  cases hbatch
  obtain rfl := hpost rfl
  rw [List.append_nil] at hids hsave ⊢
  rw [List.append_nil]
  have h' : ({ s with store := { s.store with db := db' } } : Service).store.Sound k := by
    have := h.saveBatch hk cimType pre
    rwa [hsave] at this
  refine ⟨heach.savedAs, fun o ho => ?_⟩
  have htype : o.cimType = cimType := by
    obtain ⟨a, ha, _, -, _, rfl, -⟩ := exists_of_forall₂ heach.savedAs ho
    exact hclass a ha
  obtain ⟨id, model, x, hid, hmodel, hfound, hover⟩ := finds_overwrites h h' hk heach rfl hids ho
  exact ⟨id, model, x, hid, hmodel, htype, hfound, hover⟩

/-- A terminal under the id of the grid's node. -/
def overNode : List Object :=
  [{ SmallGrid.object .terminal "_t" [("sequenceNumber", "2")] with id := some 3, model := some 1 }]

/-- It is saved as a terminal, and under its id a node is found. -/
theorem Reachable.read_saveBatch_overNode : ∃ (store : Store) (y : Object),
    SmallGrid.service.store.saveBatch "Terminal" overNode = ((overNode, .ok ()), store) ∧
      y.cimType = "TopologicalNode" ∧
      Finds { SmallGrid.service with store } 1 3 { y with rdfid := "_t", model := some 1 } := by
  have hk := Catalog.standard_storable
  have h := SmallGrid.reachable_service.sound hk
  have hsaved : (SmallGrid.service.store.saveBatch "Terminal" overNode).1 = (overNode, .ok ()) := by
    decide +kernel
  have hnode : (SmallGrid.service.store.db.object? .standard 3).any
      (fun y => y.cimType = "TopologicalNode") = true := by decide +kernel
  rcases hsave : SmallGrid.service.store.saveBatch "Terminal" overNode with ⟨out, store⟩
  rw [hsave] at hsaved
  obtain rfl : out = (overNode, .ok ()) := hsaved
  obtain ⟨y, hy, hnode⟩ := (Option.any_eq_true ..).mp hnode
  replace hnode := of_decide_eq_true hnode
  obtain ⟨-, hall⟩ := Reachable.read_saveBatch hk SmallGrid.reachable_service hsave (by decide)
  obtain ⟨id, model, x, hid, hmodel, -, hfound, hover⟩ := hall _ (List.mem_singleton_self _)
  obtain rfl : 3 = id := Option.some.inj hid
  obtain rfl : 1 = model := Option.some.inj hmodel
  obtain ⟨st, -, -, -, -, hown⟩ := Database.object?_some hk hy
  have hx := hover.other st.model y ((finds_iff h hk).mpr ⟨hy, hown⟩) (hnode ▸ by decide)
  exact ⟨store, y, rfl, hnode, hx ▸ hfound⟩

end Service

end CimStore

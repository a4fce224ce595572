import CimStore.Proofs.Reading
import CimStore.Store.Listing
import Mathlib.Algebra.BigOperators.Group.Finset.Basic
import Mathlib.Algebra.Order.BigOperators.Group.Finset

/-!
# All listings agree

What a store holds is told in several ways: models and objects are counted, models are listed with
the number of their objects, objects are listed by id or by class, and a graph counts what was
loaded. Each of these goes over the content on its own.

* `tally` counts how often each text of a list occurs; the counts by class are tallies
  (`Store.countByType_eq`, `Graph.countByType_eq`, `Service.mapValues_length_idsByType`);
* `sum_map_count`: nothing is left out and nothing counted twice, if every element has its place
  under one of distinct keys;
* `Store.Tallied` is what the numbers of a store have to do with each other, `Service.Inventoried`
  what the listings of one model have to do with each other and with the rest;
* `Service.Reachable.listings_agree`: both hold of whatever a store is brought to.
-/

namespace CimStore

/-! ## Counting -/

/-- The counts of the elements of a list, under keys that have all of them, add up to its length. -/
theorem sum_map_count {α : Type} [DecidableEq α] {ks xs : List α} (hks : ks.Nodup)
    (h : ∀ x ∈ xs, x ∈ ks) : (ks.map (xs.count ·)).sum = xs.length :=
  calc (ks.map (xs.count ·)).sum
    _ = ∑ k ∈ ks.toFinset, xs.count k := (List.sum_toFinset (xs.count ·) hks).symm
    _ = ∑ k ∈ ks.toFinset, (xs : Multiset α).count k := by simp only [Multiset.coe_count]
    _ = (xs : Multiset α).card :=
      Multiset.sum_count_eq_card fun x hx => List.mem_toFinset.mpr (h x hx)
    _ = xs.length := Multiset.coe_card xs

/-- There are as many elements of a kind as that kind occurs among the kinds of all. -/
theorem length_filter_eq_count {α β : Type} [DecidableEq β] (f : α → β) (xs : List α) (b : β) :
    (xs.filter (f · = b)).length = (xs.map f).count b := by
  rw [List.count_eq_countP, List.countP_map, ← List.countP_eq_length_filter]
  exact List.countP_congr fun x _ => by simp

/-- How often each text of a list occurs in it. -/
def tally (ts : List String) : SortedMap String Nat :=
  ts.foldl (fun counts t => counts.alter t fun n => n.getD 0 + 1) SortedMap.empty

theorem get?_tally (ts : List String) (t : String) :
    (tally ts).get? t = if t ∈ ts then some (ts.count t) else none := by
  induction ts using List.reverseRecOn with
  | nil => rfl
  | append_singleton ts u ih =>
    have hstep : tally (ts ++ [u]) = (tally ts).alter u fun n => n.getD 0 + 1 :=
      List.foldl_concat ..
    rw [hstep, SortedMap.alter, SortedMap.get?_insert]
    by_cases hu : u = t
    · subst hu
      have hcount : ((tally ts).get? u).getD 0 = ts.count u := by
        rw [ih]
        split
        · rfl
        · rename_i hnot
          exact (List.count_eq_zero_of_not_mem hnot).symm
      simp [hcount]
    · rw [if_neg hu, ih]
      simp [hu, Ne.symm hu]

/-- The order of a list does not show in its tally. -/
theorem tally_congr {ts us : List String} (h : ts.Perm us) : tally ts = tally us := by
  refine SortedMap.ext_get? fun t => ?_
  simp only [get?_tally, h.count_eq, h.mem_iff]

/-- Every text of a list is counted. -/
theorem sum_values_tally (ts : List String) : (tally ts).values.sum = ts.length := by
  have hvalues : (tally ts).values = (tally ts).keys.map (ts.count ·) := by
    unfold SortedMap.values SortedMap.keys
    rw [List.map_map]
    refine List.map_congr_left fun e he => ?_
    have hget := SortedMap.get?_eq_some_iff.mpr he
    rw [get?_tally] at hget
    split at hget
    · exact (Option.some.inj hget).symm
    · exact nomatch hget
  rw [hvalues]
  refine sum_map_count (tally ts).keys_nodup fun t ht => ?_
  rw [SortedMap.mem_keys]
  exact ⟨ts.count t, by rw [get?_tally, if_pos ht]⟩

/-! ## The counts by class -/

theorem Store.countByType_eq (s : Store) :
    s.countByType = tally (s.db.objects.values.map (·.cimType)) := by
  rw [tally, List.foldl_map]
  rfl

theorem Graph.countByType_eq (g : Graph) : g.countByType = tally (g.objects.map (·.cimType)) := by
  rw [tally, List.foldl_map]
  rfl

namespace Service

/-- There are as many ids of a class as objects listed with it. -/
theorem mapValues_length_idsByType (infos : List (Int × String)) :
    ((idsByType infos).mapValues fun _ ids => ids.length) = tally (infos.map (·.2)) := by
  refine SortedMap.ext_get? fun t => ?_
  rw [SortedMap.get?_mapValues, get?_idsByType, get?_tally]
  have hcount := length_filter_eq_count (·.2) infos t
  have hmem : t ∈ infos.map (·.2) ↔ (infos.filter (·.2 = t)).isEmpty = false := by
    rw [← List.count_pos_iff, ← hcount, List.length_pos_iff, List.isEmpty_eq_false_iff]
  by_cases ht : t ∈ infos.map (·.2)
  · rw [if_pos ht, if_neg (by simp [hmem.mp ht]), Option.map_some, List.length_map, hcount]
  · rw [if_neg ht, if_pos (by rwa [hmem, Bool.not_eq_false] at ht)]
    rfl

/-- By class, no listed object is left out. -/
theorem sum_length_idsByType (infos : List (Int × String)) :
    ((idsByType infos).values.map List.length).sum = infos.length := by
  have hvalues : (idsByType infos).values.map List.length =
      ((idsByType infos).mapValues fun _ ids => ids.length).values := by
    unfold SortedMap.values
    rw [SortedMap.entries_mapValues, List.map_map, List.map_map]
    rfl
  rw [hvalues, mapValues_length_idsByType, sum_values_tally, List.length_map]

end Service

/-! ## The numbers of a store -/

/-- The numbers of a store agree: of its models, and of its objects by model and by class. -/
structure Store.Tallied (s : Store) : Prop where
  models : s.countModels = s.listModels.length
  objects : s.countObjects = (s.listModels.map (·.objects)).sum
  byType : s.countObjects = s.stats.byType.values.sum

/-- A model has as many objects as stored objects name it for their owner. -/
theorem Database.length_objectsOf (db : Database) (model : Int) :
    (db.objectsOf model).length = (db.objects.values.map (·.model)).count model := by
  unfold objectsOf SortedMap.values
  rw [List.length_map, List.map_map]
  exact length_filter_eq_count (·.2.model) db.objects.entries model

theorem Store.Sound.tallied {k : Catalog} {s : Store} (h : s.Sound k) : s.Tallied where
  models := (List.length_map ..).symm
  objects := by
    -- Each object has an owner, and that is one of the listed models.
    have howner : ∀ m ∈ s.db.objects.values.map (·.model), m ∈ s.db.models.keys := by
      intro m hm
      obtain ⟨st, hst, rfl⟩ := List.mem_map.mp hm
      obtain ⟨⟨id, st'⟩, he, rfl⟩ := List.mem_map.mp hst
      rw [SortedMap.mem_keys]
      exact h.db.owner (SortedMap.get?_eq_some_iff.mpr he)
    have hsum := sum_map_count s.db.models.keys_nodup howner
    have hlist : s.listModels.map (·.objects) =
        s.db.models.keys.map ((s.db.objects.values.map (·.model)).count ·) := by
      unfold listModels SortedMap.keys
      rw [List.map_map, List.map_map]
      exact List.map_congr_left fun e _ => s.db.length_objectsOf e.1
    rw [hlist, hsum, List.length_map]
    exact (List.length_map ..).symm
  byType := by
    show s.db.objects.size = s.countByType.values.sum
    rw [countByType_eq, sum_values_tally, List.length_map]
    exact (List.length_map ..).symm

/-! ## The listings of a model -/

namespace Service

variable {k : Catalog} {s : Service}

/-- The listings of a model agree, whether it is stored or not: its inventory and its object infos
say the same, both ways round, each object is in the inventory once, and there are as many as the
listing of models says. What is loaded of a stored model, linked or not, has as many of each
class. -/
structure Inventoried (s : Service) (model : Int) : Prop where
  inverse : ∀ id t, (∃ ids, (inventory model s).1.get? t = some ids ∧ id ∈ ids) ↔
    (objectInfos model s).1.get? id = some t
  nonempty : ∀ ids ∈ (inventory model s).1.values, ids ≠ []
  ascending : ∀ ids ∈ (inventory model s).1.values, ids.Pairwise (· < ·)
  disjoint : (inventory model s).1.values.Pairwise List.Disjoint
  listed : ∀ m ∈ s.store.listModels, m.id = model →
    ((inventory model s).1.values.map List.length).sum = m.objects
  unlisted : (∀ m ∈ s.store.listModels, m.id ≠ model) →
    ((inventory model s).1.values.map List.length).sum = 0
  loaded : s.store.modelExists model = true → ∀ linked, ∃ g s',
    read model linked s = (.ok g, s') ∧
      g.countByType = (inventory model s).1.mapValues fun _ ids => ids.length

theorem fst_inventory (model : Int) (s : Service) :
    (inventory model s).1 = idsByType (s.store.findObjects model) := rfl

/-- Ids by class and classes by id are the same list, if it has every id once. -/
theorem get?_idsByType_iff {infos : List (Int × String)} (h : (infos.map (·.1)).Nodup) (id : Int)
    (t : String) : (∃ ids, (idsByType infos).get? t = some ids ∧ id ∈ ids) ↔
      (SortedMap.ofList infos).get? id = some t := by
  have hinfos : (SortedMap.ofList infos).get? id = some t ↔ (t, id) ∈ byType infos := by
    rw [mem_byType]
    exact ⟨SortedMap.mem_of_get?_ofList, SortedMap.get?_ofList_of_mem h⟩
  simp only [hinfos, byType, List.mem_flatMap, List.mem_map, Prod.mk.injEq, Prod.exists,
    ← SortedMap.get?_eq_some_iff]
  constructor
  · rintro ⟨ids, hget, hid⟩
    exact ⟨t, ids, hget, id, hid, rfl, rfl⟩
  · rintro ⟨_, ids, hget, _, hid, rfl, rfl⟩
    exact ⟨ids, hget, hid⟩

theorem countByType_read (h : s.store.Sound k) (hk : k.Storable) {model : Int}
    (hm : s.store.modelExists model = true) (linked : Bool) :
    ∃ g s', read model linked s = (.ok g, s') ∧
      g.countByType = tally ((s.store.db.objectsOf model).map (·.2)) := by
  have hperm : ((unlinked k s model).objects.map (·.cimType)).Perm
      ((s.store.db.objectsOf model).map (·.2)) := by
    have := (h.db.perm_contents hk model).map (·.2)
    rwa [List.map_map, List.map_map, ← objects_unlinked] at this
  cases linked with
  | false =>
    obtain ⟨s', hread, -⟩ := read_unlinked h hk hm
    exact ⟨_, s', hread, (Graph.countByType_eq _).trans (tally_congr hperm)⟩
  | true =>
    obtain ⟨s', hread, -⟩ := read_linked h hk hm
    have hlinked := (unlinked k s model).map_linkAll fun c _ _ _ => c.name
    exact ⟨_, s', hread, (Graph.countByType_eq _).trans (tally_congr (hlinked ▸ hperm))⟩

theorem inventoried (h : s.store.Sound k) (hk : k.Storable) (model : Int) :
    s.Inventoried model := by
  have hnodup : ((s.store.db.objectsOf model).map (·.1)).Nodup :=
    List.pairwise_map.mpr ((s.store.db.pairwise_objectsOf model).imp fun hlt => by omega)
  have hsum := sum_length_idsByType (s.store.db.objectsOf model)
  refine ⟨?inverse, ?nonempty, ?ascending, ?disjoint, ?listed, ?unlisted, ?loaded⟩
  case inverse => exact get?_idsByType_iff hnodup
  case nonempty =>
    intro ids hids
    obtain ⟨⟨t, ids⟩, hb, rfl⟩ := List.mem_map.mp hids
    obtain ⟨hne, rfl⟩ := mem_entries_idsByType.mp hb
    simpa using hne
  case ascending =>
    intro ids hids
    obtain ⟨⟨t, ids⟩, hb, rfl⟩ := List.mem_map.mp hids
    obtain ⟨-, rfl⟩ := mem_entries_idsByType.mp hb
    exact List.pairwise_map.mpr ((s.store.db.pairwise_objectsOf model).filter _)
  case disjoint =>
    have hclass : ∀ e ∈ (inventory model s).1.entries, ∀ id ∈ e.2,
        (objectInfos model s).1.get? id = some e.1 := fun e he id hid =>
      (get?_idsByType_iff hnodup id e.1).mp ⟨e.2, SortedMap.get?_eq_some_iff.mpr he, hid⟩
    -- An id under two classes would have both of them.
    refine List.pairwise_map.mpr ((inventory model s).1.ascending.imp_of_mem ?_)
    intro a b ha hb hlt id hida hidb
    have heq := (hclass a ha id hida).symm.trans (hclass b hb id hidb)
    exact Std.lt_irrefl (Option.some.inj heq ▸ hlt)
  case listed =>
    rintro m hm rfl
    obtain ⟨e, -, rfl⟩ := List.mem_map.mp hm
    exact hsum
  case unlisted =>
    intro hnone
    -- An object of the model would have a stored owner.
    have hempty : s.store.db.objectsOf model = [] := by
      refine List.eq_nil_iff_forall_not_mem.mpr ?_
      rintro ⟨id, t⟩ he
      obtain ⟨st, hst, rfl, -⟩ := Database.mem_objectsOf.mp he
      obtain ⟨name, hname⟩ := h.db.owner hst
      exact hnone _ (List.mem_map_of_mem (SortedMap.get?_eq_some_iff.mp hname)) rfl
    exact hsum.trans (congrArg List.length hempty)
  case loaded =>
    intro hm linked
    obtain ⟨g, s', hread, hcount⟩ := countByType_read h hk hm linked
    exact ⟨g, s', hread, hcount.trans (mapValues_length_idsByType _).symm⟩

/-- **All listings agree.** Whatever was done to a store before, the numbers of its models and
objects agree, and so do the listings of every model, stored or not. -/
theorem Reachable.listings_agree (hk : k.Storable) (hs : Reachable k s) :
    s.store.Tallied ∧ ∀ model, s.Inventoried model :=
  ⟨(hs.sound hk).tallied, inventoried (hs.sound hk) hk⟩

/-- The grid is read with one object of each class, as the numbers of the store have it. -/
theorem Reachable.listings_agree_smallGrid : SmallGrid.service.store.Tallied ∧
    ∃ g s', read 1 true SmallGrid.service = (.ok g, s') ∧ g.countByType.entries =
      [("ACLineSegment", 1), ("TopologicalIsland", 1), ("TopologicalNode", 1)] := by
  obtain ⟨htallied, hinventoried⟩ :=
    Reachable.listings_agree Catalog.standard_storable SmallGrid.reachable_service
  obtain ⟨g, s', hread, hcount⟩ := (hinventoried 1).loaded SmallGrid.modelExists_service true
  refine ⟨htallied, g, s', hread, ?_⟩
  rw [hcount, fst_inventory, SmallGrid.findObjects_service, mapValues_length_idsByType]
  decide +kernel

end Service

end CimStore

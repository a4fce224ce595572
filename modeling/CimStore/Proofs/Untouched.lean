import CimStore.Proofs.Reading
import CimStore.Store.Listing

/-!
# What stays of a model

All that a store tells of a model follows from its name and its objects.

* `Database.Sound.contents_eq`: the objects of a model are a list that only depends on which objects
  there are, and the listing of the model follows from it;
* `Service.ReadsAlike`: of a model two states give the same listing, the same inventory and the same
  reads, linked or not. `Service.ReadsAlike.of_contents`: they do if it has the same objects in
  both;
* `Service.Untouched`: the model has the same name, too.
-/

namespace CimStore

/-! ## The objects of one model -/

theorem Object.Precedes.asymm {a b : Object} (h : a.Precedes b) : ¬b.Precedes a := by
  rcases h with hlt | ⟨heq, i, j, hi, hj, hlt⟩ <;>
    rintro (hlt' | ⟨heq', i', j', hi', hj', hlt'⟩)
  · exact Std.lt_irrefl (Std.lt_trans hlt hlt')
  · exact Std.lt_irrefl (heq' ▸ hlt)
  · exact Std.lt_irrefl (heq ▸ hlt')
  · rw [hi, Option.some.injEq] at hj'
    rw [hj, Option.some.injEq] at hi'
    omega

namespace Database

variable {k : Catalog} {db db' : Database} {n : Int}

theorem mem_contents_iff_object? (hk : k.Storable) {x : Object} :
    x ∈ db.contents k n ↔ ∃ id, db.object? k id = some x ∧ x.id = some id ∧ x.model = some n := by
  rw [mem_contents]
  constructor
  · rintro ⟨id, st, hst, rfl, hx⟩
    obtain ⟨st', hst', hid, -, -, hmodel⟩ := object?_some hk hx
    rw [hst, Option.some.injEq] at hst'
    exact ⟨id, hx, hid, hst' ▸ hmodel⟩
  · rintro ⟨id, hx, -, hn⟩
    obtain ⟨st, hst, -, -, -, hmodel⟩ := object?_some hk hx
    exact ⟨id, st, hst, Option.some.inj (hmodel.symm.trans hn), hx⟩

/-- The objects of a model come in an order that only depends on which objects there are. -/
theorem Sound.contents_eq_filter (h : db.Sound k) (h' : db'.Sound k) (hk : k.Storable)
    {p : Object → Bool}
    (hmem : ∀ x, x ∈ db'.contents k n ↔ x ∈ db.contents k n ∧ p x = true) :
    db'.contents k n = (db.contents k n).filter p := by
  have hnodup : ∀ os : List Object, os.Pairwise Object.Precedes → os.Nodup := by
    intro os hos
    refine hos.imp fun {a b} hab heq => ?_
    subst heq
    exact Object.not_precedes_self a hab
  have hleft := h'.pairwise_contents hk n
  have hright := (h.pairwise_contents hk n).filter p
  refine List.Perm.eq_of_pairwise (fun a b _ _ hab hba => absurd hba hab.asymm) hleft hright ?_
  rw [List.perm_ext_iff_of_nodup (hnodup _ hleft) (hnodup _ hright)]
  intro x
  rw [hmem, List.mem_filter]

/-- A model has the same objects if each of them is loaded as before, and no other. -/
theorem Sound.contents_eq (h : db.Sound k) (h' : db'.Sound k) (hk : k.Storable)
    (hsame : ∀ id x, x.model = some n → (db'.object? k id = some x ↔ db.object? k id = some x)) :
    db'.contents k n = db.contents k n := by
  have hmem : ∀ x, x ∈ db'.contents k n ↔ x ∈ db.contents k n ∧ true = true := fun x => by
    rw [mem_contents_iff_object? hk, mem_contents_iff_object? hk, and_iff_left rfl]
    refine exists_congr fun id => and_congr_left fun hx => hsame id x hx.2
  rw [h.contents_eq_filter h' hk hmem, List.filter_eq_self.mpr fun _ _ => rfl]

/-- What is listed of a model are the ids and classes of its objects. -/
theorem Sound.mem_objectsOf_iff (h : db.Sound k) (hk : k.Storable) {e : Int × String} :
    e ∈ db.objectsOf n ↔ ∃ x ∈ db.contents k n, (x.id, x.cimType) = (some e.1, e.2) := by
  have hmem := (h.perm_contents hk n).mem_iff (a := (some e.1, e.2))
  rw [List.mem_map, List.mem_map] at hmem
  rw [hmem]
  constructor
  · exact fun he => ⟨e, he, rfl⟩
  · rintro ⟨e', he', heq⟩
    obtain ⟨hid, ht⟩ := Prod.mk.inj heq
    exact Prod.ext (Option.some.inj hid) ht ▸ he'

theorem Sound.objectsOf_eq (h : db.Sound k) (h' : db'.Sound k) (hk : k.Storable)
    (hcontents : db'.contents k n = db.contents k n) : db'.objectsOf n = db.objectsOf n := by
  apply SortedMap.eq_of_mem_iff (db'.pairwise_objectsOf n) (db.pairwise_objectsOf n)
  intro e
  rw [h.mem_objectsOf_iff hk, h'.mem_objectsOf_iff hk, hcontents]

end Database

/-! ## What is told of a model -/

namespace Service

variable {k : Catalog} {s s' s'' : Service} {n : Int}

/-- A model that is not stored cannot be read. -/
theorem read_missing (hm : s.store.modelExists n = false) (linked : Bool) :
    read n linked s = (.error (.modelNotFound n), s) := by
  unfold read
  rw [bind_eq (get_eq s)]
  simp only [hm, Bool.not_false, if_true]
  rfl

/-- What is listed and read of the model is the same in both states. -/
structure ReadsAlike (s s' : Service) (n : Int) : Prop where
  infos : s'.store.findObjects n = s.store.findObjects n
  inventory : (inventory n s').1 = (inventory n s).1
  read : ∀ linked, (read n linked s').1 = (read n linked s).1

/-- All that is told of the model is the same in both states. -/
structure Untouched (s s' : Service) (n : Int) : Prop extends ReadsAlike s s' n where
  name : s'.store.modelName? n = s.store.modelName? n

/-- **The objects of a model** decide what is read of it. -/
theorem ReadsAlike.of_contents (h : s.store.Sound k) (h' : s'.store.Sound k) (hk : k.Storable)
    (hexists : s'.store.modelExists n = s.store.modelExists n)
    (hcontents : s'.store.db.contents k n = s.store.db.contents k n) : ReadsAlike s s' n := by
  have hinfos : s'.store.findObjects n = s.store.findObjects n :=
    h.db.objectsOf_eq h'.db hk hcontents
  refine ⟨hinfos, congrArg idsByType hinfos, fun linked => ?_⟩
  cases hm : s.store.modelExists n with
  | false => rw [read_missing hm, read_missing (hexists.trans hm)]
  | true =>
    have hgraph : unlinked k s' n = unlinked k s n := by rw [unlinked, hcontents, unlinked]
    cases linked with
    | false =>
      obtain ⟨_, hread, -⟩ := read_unlinked h hk hm
      obtain ⟨_, hread', -⟩ := read_unlinked h' hk (hexists.trans hm)
      rw [hread, hread', hgraph]
    | true =>
      obtain ⟨_, hread, -⟩ := read_linked h hk hm
      obtain ⟨_, hread', -⟩ := read_linked h' hk (hexists.trans hm)
      rw [hread, hread', hgraph]

namespace Untouched

theorem refl (s : Service) (n : Int) : Untouched s s n := ⟨⟨rfl, rfl, fun _ => rfl⟩, rfl⟩

theorem trans (h : Untouched s s' n) (h' : Untouched s' s'' n) : Untouched s s'' n where
  name := h'.name.trans h.name
  infos := h'.infos.trans h.infos
  inventory := h'.inventory.trans h.inventory
  read linked := (h'.read linked).trans (h.read linked)

/-- **The name and the objects of a model** decide all that is told of it. -/
theorem of_contents (h : s.store.Sound k) (h' : s'.store.Sound k) (hk : k.Storable)
    (hname : s'.store.modelName? n = s.store.modelName? n)
    (hcontents : s'.store.db.contents k n = s.store.db.contents k n) : Untouched s s' n :=
  ⟨.of_contents h h' hk (congrArg Option.isSome hname) hcontents, hname⟩

end Untouched

/-- Two states with one content tell the same of every model. -/
theorem untouched_of_db_eq (h : s.store.Sound k) (h' : s'.store.Sound k) (hk : k.Storable)
    (hdb : s'.store.db = s.store.db) (n : Int) : Untouched s s' n :=
  .of_contents h h' hk (congrArg (·.models.get? n) hdb) (congrArg (·.contents k n) hdb)

end Service

end CimStore

import CimStore.Proofs.Prefixes
import CimStore.Proofs.RoundTrip
import CimStore.Proofs.Retrying

/-!
# Filling a new model

New objects of known classes can always be saved into a new model, as long as there are ids left:

* `Database.Takes`: objects that a database can take, one after the other, and `Database.Fresh`:
  new ones that it can take;
* `Service.saveObjects_new`: they are saved without an error;
* `Database.StoresAll.perm_contents`, `Database.StoresAll.before_contents`: the model then has just
  these objects, by class, and within a class in the order in which they came.
-/

namespace CimStore

/-! ## Objects that can be taken -/

namespace Database

/-- The objects can be saved into the model, one after the other: they are new, their rdf:IDs are
different and free in the model, and there are ids left for all of them. -/
structure Fresh (db : Database) (model : Int) (os : List Object) : Prop where
  owner : db.models.contains model = true
  new : ∀ o ∈ os, o.id = none
  room : db.lastObject + os.length ≤ maxInteger
  distinct : (os.map (·.rdfid)).Nodup
  free : ∀ {j b}, db.objects.get? j = some b → b.model = model → b.rdfid ∉ os.map (·.rdfid)

variable {k : Catalog} {db : Database} {model : Int} {o : Object} {os ps : List Object}

/-- The objects can be saved into the model, one after the other: their rdf:IDs are different, and
what the model has under one of them is the object itself; those with an id were given it before,
and there are ids left for the others, if there are any. -/
structure Takes (db : Database) (model : Int) (os : List Object) : Prop where
  owner : db.models.contains model = true
  given : ∀ o ∈ os, ∀ id, o.id = some id → id ≤ db.lastObject
  room : 0 < os.countP (·.id = none) → db.lastObject + os.countP (·.id = none) ≤ maxInteger
  distinct : (os.map (·.rdfid)).Nodup
  free : ∀ {j b}, db.objects.get? j = some b → b.model = model → ∀ o ∈ os, b.rdfid = o.rdfid →
    o.id = some j

theorem Fresh.takes (h : db.Fresh model os) : db.Takes model os where
  owner := h.owner
  given o ho id hid := nomatch (h.new o ho).symm.trans hid
  room _ := by
    have hle := os.countP_le_length (p := (·.id = none))
    have := h.room
    omega
  distinct := h.distinct
  free hb hm o ho heq := absurd (List.mem_map.mpr ⟨o, ho, heq.symm⟩) (h.free hb hm)

theorem Takes.perm (h : db.Takes model os) (hperm : os.Perm ps) : db.Takes model ps where
  owner := h.owner
  given o ho := h.given o (hperm.mem_iff.mpr ho)
  room := hperm.countP_eq _ ▸ h.room
  distinct := (hperm.map _).nodup_iff.mp h.distinct
  free hb hm o ho := h.free hb hm o (hperm.mem_iff.mpr ho)

/-- Only ids and rdf:IDs count. -/
theorem Takes.giveTo (h : db.Takes model (os ++ ps)) :
    db.Takes model (os.map (·.giveTo model) ++ ps) := by
  have hrdfids : (os.map (·.giveTo model) ++ ps).map (·.rdfid) = (os ++ ps).map (·.rdfid) := by
    simp [Object.giveTo, Function.comp_def]
  have hsame : ∀ o ∈ os.map (·.giveTo model) ++ ps,
      ∃ a ∈ os ++ ps, a.id = o.id ∧ a.rdfid = o.rdfid := by
    intro o ho
    rcases List.mem_append.mp ho with ho | ho
    · obtain ⟨a, ha, rfl⟩ := List.mem_map.mp ho
      exact ⟨a, List.mem_append_left _ ha, rfl, rfl⟩
    · exact ⟨o, List.mem_append_right _ ho, rfl, rfl⟩
  refine ⟨h.owner, fun o ho id hid => ?_, ?_, hrdfids ▸ h.distinct, fun hb hm o ho heq => ?_⟩
  · obtain ⟨a, ha, haid, -⟩ := hsame o ho
    exact h.given a ha id (haid.trans hid)
  · have hroom := h.room
    rw [List.countP_append] at hroom ⊢
    rw [List.countP_map]
    exact hroom
  · obtain ⟨a, ha, haid, hardfid⟩ := hsame o ho
    exact haid ▸ h.free hb hm a ha (heq.trans hardfid.symm)

/-- **An object of the model is saved**, and the database can take the others after it. -/
theorem Takes.save (h : db.Takes model (o :: os)) (hmodel : o.model = some model) :
    ∃ id db', db.save o.cls o = (.ok id, db') ∧ db'.Takes model os := by
  have hroom := h.room
  have hexhausted : ¬db.Exhausted o := by
    rintro ⟨hid, hmax⟩
    rw [List.countP_cons_of_pos (by simpa using hid)] at hroom
    have := hroom (Nat.succ_pos _)
    omega
  have hfree : db.isTaken (o.id.getD (db.lastObject + 1)) model o.rdfid = false := by
    refine isTaken_eq_false.mpr fun j b hb hm heq => ?_
    rw [h.free hb hm o (List.mem_cons_self ..) heq, Option.getD_some]
  obtain ⟨stored, hput⟩ := db.exists_putIdentity_eq o o.cls.name model
  rw [if_neg hexhausted, if_neg (by simp [hfree]), if_neg (by simp [h.owner])] at hput
  have hok : ∃ id db', db.save o.cls o = (.ok id, db') := by
    simp [Database.save, hmodel, hput, ClassRow.ofObject_eq]
  obtain ⟨id, db', hsave⟩ := hok
  refine ⟨id, db', hsave, ?_⟩
  rcases db.save_cases o.cls o with ⟨e, herror⟩ | ⟨n, id₁, db₁, hsave₁, -, hs⟩
  · cases hsave.symm.trans herror
  obtain ⟨hid₁, rfl⟩ := Prod.mk.inj (hsave.symm.trans hsave₁)
  obtain rfl := Except.ok.inj hid₁
  obtain rfl : model = n := Option.some.inj (hmodel.symm.trans hs.model_eq)
  have hlast := hs.lastObject
  obtain ⟨hnot, hnodup⟩ := List.nodup_cons.mp h.distinct
  refine ⟨hs.models ▸ h.owner, fun a ha i hi => ?_, fun hleft => ?_, hnodup,
    fun {j b} hb hm a ha heq => ?_⟩
  · have hle := h.given a (List.mem_cons_of_mem _ ha) i hi
    omega
  · rcases hs.id_eq with hid | ⟨hid, hnew⟩
    · have hle := h.given o (List.mem_cons_self ..) id hid
      rw [List.countP_cons_of_neg (by simp [hid])] at hroom
      have := hroom hleft
      omega
    · rw [List.countP_cons_of_pos (by simp [hid])] at hroom
      have := hroom (Nat.succ_pos _)
      omega
  · rw [hs.get?_objects] at hb
    split at hb
    · obtain rfl := Option.some.inj hb
      rw [overwrite_rdfid] at heq
      exact absurd (List.mem_map.mpr ⟨a, ha, heq.symm⟩) hnot
    · exact h.free hb hm a (List.mem_cons_of_mem _ ha) heq

end Database

namespace Store

variable {k : Catalog} {model : Int} {os ps : List Object}

/-- Objects of one class are saved in order. -/
theorem saveAll_takes {c : CimClass} {db : Database} (h : db.Takes model (os ++ ps))
    (hos : ∀ o ∈ os, o.model = some model ∧ o.cls = c) :
    (saveAll c db os).result = .ok () ∧ (saveAll c db os).db.Takes model ps := by
  induction os generalizing db with
  | nil => exact ⟨rfl, h⟩
  | cons o os ih =>
    obtain ⟨hmodel, rfl⟩ := hos o (List.mem_cons_self ..)
    obtain ⟨id, db', hsave, hrest⟩ := h.save hmodel
    obtain ⟨hok, htakes⟩ := ih hrest fun a ha => hos a (List.mem_cons_of_mem _ ha)
    simp only [saveAll, hsave]
    exact ⟨hok, htakes⟩

theorem saveBatch_takes {s : Store} {c : CimClass} {cimType : String}
    (hs : s.classes = k) (hc : k.get? cimType = some c) (h : s.db.Takes model (os ++ ps))
    (hos : ∀ o ∈ os, o.model = some model ∧ o.cls = c) :
    ∃ os' db', s.saveBatch cimType os = ((os', .ok ()), { s with db := db' }) ∧
      db'.Takes model ps := by
  obtain ⟨hok, htakes⟩ := saveAll_takes h hos
  refine ⟨(saveAll c s.db os).objects, (saveAll c s.db os).db, ?_, htakes⟩
  rw [saveBatch_of_get? hs hc, hok]

end Store

namespace Service

variable {k : Catalog} {s : Service} {model : Int}

/-- Batches of known classes are saved in order. -/
theorem saveBatches_takes {bs : List Batch} (hs : s.store.classes = k)
    (hbs : ∀ b ∈ bs, ∃ c, k.get? b.cimType = some c ∧ ∀ o ∈ b.objects, o.cls = c)
    (h : s.store.db.Takes model (bs.flatMap (·.objects))) :
    ∃ os' s', saveBatches model bs s = ((os', .ok ()), s') := by
  induction bs generalizing s with
  | nil => exact ⟨[], s, rfl⟩
  | cons b bs ih =>
    obtain ⟨c, hc, hclasses⟩ := hbs b (List.mem_cons_self ..)
    have hgiven : ∀ o ∈ b.objects.map (·.giveTo model), o.model = some model ∧ o.cls = c := by
      intro o ho
      obtain ⟨a, ha, rfl⟩ := List.mem_map.mp ho
      exact ⟨rfl, hclasses a ha⟩
    obtain ⟨os', db', hbatch, htakes⟩ :=
      Store.saveBatch_takes hs hc (Database.Takes.giveTo h) hgiven
    obtain ⟨rest, s', hrest⟩ := @ih { s with
        store := { s.store with db := db' }
        calls := s.calls ++ [.saveBatch b.cimType
          ((b.objects.map (·.giveTo model)).map (·.rdfid))] } hs
      (fun a ha => hbs a (List.mem_cons_of_mem _ ha)) htakes
    refine ⟨os' ++ rest, s', ?_⟩
    rw [saveBatches_cons]
    rw [note_onStore_eq hbatch]
    show (saveBatches model bs >>= _) _ = _
    rw [bind_eq hrest]
    rfl

/-- Every batch of objects of known classes is of such a class. -/
theorem exists_class_of_groupByType {os : List Object}
    (hos : ∀ o ∈ os, k.get? o.cimType = some o.cls) :
    ∀ b ∈ groupByType os, ∃ c, k.get? b.cimType = some c ∧ ∀ o ∈ b.objects, o.cls = c := by
  intro b hb
  have hgrouped := grouped_groupByType os
  have hmem : ∀ o ∈ b.objects, k.get? b.cimType = some o.cls := by
    intro o ho
    rw [← hgrouped.classes b hb o ho]
    exact hos o ((perm_groupByType os).mem_iff.mp (List.mem_flatMap.mpr ⟨b, hb, ho⟩))
  obtain ⟨o, ho⟩ := List.exists_mem_of_ne_nil _ (hgrouped.nonempty b hb)
  exact ⟨o.cls, hmem o ho, fun a ha => Option.some.inj ((hmem a ha).symm.trans (hmem o ho))⟩

/-- **Objects of known classes that can be taken** are saved class by class. -/
theorem saveBatches_groupByType {os : List Object} (hs : s.store.classes = k)
    (hos : ∀ o ∈ os, k.get? o.cimType = some o.cls) (h : s.store.db.Takes model os) :
    ∃ saved s', saveBatches model (groupByType os) s = ((saved, .ok ()), s') :=
  saveBatches_takes hs (exists_class_of_groupByType hos) (h.perm (perm_groupByType os).symm)

/-- There are ids left for a new model and for `n` new objects. -/
structure HasRoom (s : Service) (n : Nat) : Prop where
  model : s.store.db.lastModel < maxInteger
  objects : s.store.db.lastObject + n ≤ maxInteger

/-- A new model is stored under the next id. -/
theorem persist_new {m : Model} (hm : m.id = none) (h : s.store.db.lastModel < maxInteger) :
    ∃ s', persist m s = ((m.setId (s.store.db.lastModel + 1), .ok (s.store.db.lastModel + 1)), s') ∧
      s'.store = { s.store with
        db := s.store.db.nameModel (s.store.db.lastModel + 1) m.name } := by
  have hleft : s.store.db.lastModel ≠ maxInteger := by omega
  have hsave : s.store.saveModel m = (.ok (s.store.db.lastModel + 1), { s.store with
      db := s.store.db.nameModel (s.store.db.lastModel + 1) m.name }) := by
    simp [Store.saveModel, Database.putModel, hm, Database.nextId, hleft, Database.nameModel, bind,
      Except.bind, pure, Except.pure]
  refine ⟨{ s with
    store := { s.store with db := s.store.db.nameModel (s.store.db.lastModel + 1) m.name }
    calls := s.calls ++ [.saveModel m.id] }, ?_, rfl⟩
  rw [persist_eq]
  rw [note_onStore_eq hsave]
  rfl

/-- **New objects of known classes are saved into a new model**, the classes one after the other. -/
theorem saveObjects_new (hk : k.Storable) (hs : s.store.Sound k) {m : Model} (hm : m.id = none)
    {os : List Object} (hroom : s.HasRoom os.length)
    (hos : ∀ o ∈ os, o.id = none ∧ k.get? o.cimType = some o.cls)
    (hnodup : (os.map (·.rdfid)).Nodup) :
    ∃ saved s', saveObjects m os s =
        ((m.setId (s.store.db.lastModel + 1), .ok saved), s') ∧
      Database.StoresAll k (s.store.db.lastModel + 1)
        (s.store.db.nameModel (s.store.db.lastModel + 1) m.name)
        (((groupByType os).flatMap (·.objects)).map (·.giveTo (s.store.db.lastModel + 1))) saved
        s'.store.db ∧ s'.store = { s.store with db := s'.store.db } := by
  obtain ⟨s₁, hpersist, hstore₁⟩ := persist_new hm hroom.model
  -- The model is new, so no rdf:ID is taken in it.
  have hfresh : s₁.store.db.Fresh (s.store.db.lastModel + 1) os := by
    rw [hstore₁]
    refine ⟨?_, fun o ho => (hos o ho).1, hroom.objects, hnodup, fun {j b} hb hmodel => ?_⟩
    · exact SortedMap.contains_insert.mpr (.inl rfl)
    · obtain ⟨name, hname⟩ := hs.db.owner hb
      have hle := hs.db.model_le hname
      omega
  have hclasses : s₁.store.classes = k := by
    rw [hstore₁]
    exact hs.classes
  obtain ⟨saved, s', hsave⟩ :=
    saveBatches_groupByType hclasses (fun o ho => (hos o ho).2) hfresh.takes
  obtain ⟨pre, pre', post, post', hall, rfl, hstores, hpost, hok, hstore⟩ :=
    saveBatches_spec hk hclasses hsave
  obtain rfl := hok rfl
  obtain rfl : post' = [] := by simpa using hpost
  rw [List.append_nil] at hall
  rw [List.append_nil] at hsave
  rw [hstore₁] at hstores hstore
  refine ⟨pre', s', ?_, hall ▸ hstores, hstore⟩
  rw [saveObjects_eq]
  rw [bind_eq hpersist]
  show (saveBatches _ (groupByType os) >>= _) _ = _
  rw [bind_eq hsave]
  rfl

end Service

/-! ## What a new model has -/

/-- Lists that are related element by element agree on what related elements agree on. -/
theorem map_eq_map_of_forall₂ {α β γ : Type} {f : α → γ} {g : β → γ} {as : List α} {bs : List β}
    (h : List.Forall₂ (fun a b => g b = f a) as bs) : bs.map g = as.map f := by
  induction h with
  | nil => rfl
  | cons h _ ih => rw [List.map_cons, List.map_cons, h, ih]

theorem pairwise_nextIds (last : Int) (n : Nat) : (nextIds last n).Pairwise (· < ·) := by
  induction n generalizing last with
  | zero => exact List.Pairwise.nil
  | succ n ih =>
    refine List.pairwise_cons.mpr ⟨fun id hid => ?_, ih _⟩
    exact (mem_nextIds.mp hid).1

namespace Object

/-- `a` stands in front of `b` by class, and by rdf:ID within a class. -/
def Before (a b : Object) : Prop :=
  a.cimType < b.cimType ∨ a.cimType = b.cimType ∧ a.rdfid < b.rdfid

/-- `x` is what is loaded of `o`, whatever the ids. -/
structure Reloads (o x : Object) : Prop where
  cls : x.cls = o.cls
  rdfid : x.rdfid = o.rdfid
  fields : x.fields = o.fields.map Field.reloaded

/-- A saved object as it is loaded. -/
def loaded (o : Object) (model : Int) : Object := o.reloaded (o.id.getD 0) o.rdfid model

end Object

/-- `xs` are what is loaded of the objects `os`: each of them, by class and rdf:ID. -/
structure Loaded (os xs : List Object) : Prop where
  before : xs.Pairwise Object.Before
  reloads : ∃ qs, qs.Perm os ∧ List.Forall₂ Object.Reloads qs xs

namespace Loaded

variable {os ps xs : List Object}

theorem of_perm (h : Loaded os xs) (hperm : os.Perm ps) : Loaded ps xs := by
  obtain ⟨qs, hqs, hxs⟩ := h.reloads
  exact ⟨h.before, qs, hqs.trans hperm, hxs⟩

theorem map_rdfid (h : Loaded os xs) : (xs.map (·.rdfid)).Perm (os.map (·.rdfid)) := by
  obtain ⟨qs, hqs, hxs⟩ := h.reloads
  rw [map_eq_map_of_forall₂ (hxs.imp fun _ _ hox => hox.rdfid)]
  exact hqs.map _

theorem exists_reloads (h : Loaded os xs) {x : Object} (hx : x ∈ xs) : ∃ o ∈ os, o.Reloads x := by
  obtain ⟨qs, hqs, hxs⟩ := h.reloads
  obtain ⟨o, ho, hox⟩ := exists_of_forall₂ hxs hx
  exact ⟨o, hqs.mem_iff.mp ho, hox⟩

end Loaded

namespace Database.StoresAll

variable {k : Catalog} {model : Int} {db db' : Database} {os saved : List Object}

theorem nodup_new (h : StoresAll k model db os saved db') (hnew : ∀ o ∈ os, o.id = none) :
    (saved.map (·.id)).Nodup := by
  rw [(h.ids_of_new hnew).1]
  exact (nodup_nextIds ..).map (Option.some_injective _)

/-- **A model that had no objects has those that are saved**, each as it is loaded. -/
theorem perm_contents (h : StoresAll k model db os saved db') (hk : k.Storable)
    (h' : db'.Sound k) (hnew : ∀ o ∈ os, o.id = none)
    (hle : ∀ {id st}, db.objects.get? id = some st → id ≤ db.lastObject)
    (hempty : ∀ {id st}, db.objects.get? id = some st → st.model ≠ model) :
    (db'.contents k model).Perm (saved.map (·.loaded model)) := by
  have hnodup := h.nodup_new hnew
  have hmem : ∀ o ∈ saved, o.loaded model ∈ db'.contents k model := by
    intro o ho
    obtain ⟨id, hid, -, hloaded⟩ := h.mem_contents hk hnodup hle
      (fun a ha id hid => nomatch (hnew a ha).symm.trans hid) ho
    have heq : o.loaded model = o.reloaded id o.rdfid model := by rw [Object.loaded, hid]; rfl
    exact heq ▸ hloaded
  have hids : (saved.map (·.loaded model)).map (·.id) = saved.map (·.id) := by
    rw [List.map_map]
    refine List.map_congr_left fun o ho => ?_
    obtain ⟨id, hid, -⟩ := h.id_cases ho
    show some (o.id.getD 0) = o.id
    rw [hid]
    rfl
  rw [List.perm_ext_iff_of_nodup]
  · intro x
    constructor
    · intro hx
      by_cases hsaved : x.id ∈ saved.map (·.id)
      · -- Under one id there is one object.
        obtain ⟨y, hy, hid⟩ := List.mem_map.mp (hids ▸ hsaved)
        obtain ⟨o, ho, rfl⟩ := List.mem_map.mp hy
        have hone := h'.filter_id_contents hk (hmem o ho)
        have hmember : x ∈ (db'.contents k model).filter fun y => y.id = (o.loaded model).id :=
          List.mem_filter.mpr ⟨hx, by simpa using hid.symm⟩
        rw [hone, List.mem_singleton] at hmember
        exact hmember ▸ hy
      · obtain ⟨id, st, hst, hmodel, -⟩ :=
          Database.mem_contents.mp ((h.mem_contents_iff hk hsaved).mp hx)
        exact absurd hmodel (hempty hst)
    · intro hx
      obtain ⟨o, ho, rfl⟩ := List.mem_map.mp hx
      exact hmem o ho
  · refine (h'.pairwise_contents hk model).imp fun {a b} hab heq => ?_
    exact Object.not_precedes_self a (heq ▸ hab)
  · exact (hids ▸ hnodup : ((saved.map (·.loaded model)).map (·.id)).Nodup).of_map _

/-- Objects that come in an order of their own within each class are loaded in this order, the
classes one after the other. -/
theorem before_contents (h : StoresAll k model db os saved db') (hk : k.Storable)
    (h' : db'.Sound k) (hnew : ∀ o ∈ os, o.id = none)
    (hperm : (db'.contents k model).Perm (saved.map (·.loaded model)))
    (hos : os.Pairwise fun a b => a.cimType = b.cimType → a.rdfid < b.rdfid) :
    (db'.contents k model).Pairwise Object.Before := by
  have hids : saved.Pairwise fun a b => ∃ i j, a.id = some i ∧ b.id = some j ∧ i < j := by
    have hnext : ((nextIds db.lastObject os.length).map some).Pairwise
        fun a b => ∃ i j, a = some i ∧ b = some j ∧ i < j :=
      List.pairwise_map.mpr ((pairwise_nextIds ..).imp fun hlt => ⟨_, _, rfl, rfl, hlt⟩)
    rw [← (h.ids_of_new hnew).1] at hnext
    exact List.pairwise_map.mp hnext
  have hrdfids : saved.Pairwise fun a b => a.cimType = b.cimType → a.rdfid < b.rdfid := by
    have hsame : saved.map (fun o => (o.cimType, o.rdfid)) =
        os.map fun o => (o.cimType, o.rdfid) :=
      map_eq_map_of_forall₂ (h.savedAs.imp fun _ _ ⟨_, hsaved, _⟩ => by rw [hsaved]; rfl)
    have hpairs : (os.map fun o => (o.cimType, o.rdfid)).Pairwise
        fun a b => a.1 = b.1 → a.2 < b.2 := List.pairwise_map.mpr hos
    rw [← hsame] at hpairs
    exact List.pairwise_map.mp hpairs
  -- The ids ascend, so of two saved objects the one with the smaller id comes first.
  have hboth : ∀ a ∈ saved, ∀ b ∈ saved, a.cimType = b.cimType → ∀ i j, a.id = some i →
      b.id = some j → i < j → a.rdfid < b.rdfid := by
    intro a ha b hb htype i j hi hj hlt
    obtain ⟨p, hp, rfl⟩ := List.getElem_of_mem ha
    obtain ⟨q, hq, rfl⟩ := List.getElem_of_mem hb
    have hpq : p < q := by
      by_contra hnot
      rcases Nat.lt_or_eq_of_le (Nat.le_of_not_lt hnot) with hqp | rfl
      · obtain ⟨j', i', hj', hi', hlt'⟩ := List.pairwise_iff_getElem.mp hids q p hq hp hqp
        obtain rfl : i = i' := Option.some.inj (hi.symm.trans hi')
        obtain rfl : j = j' := Option.some.inj (hj.symm.trans hj')
        omega
      · obtain rfl : i = j := Option.some.inj (hi.symm.trans hj)
        omega
    exact List.pairwise_iff_getElem.mp hrdfids p q hp hq hpq htype
  refine (h'.pairwise_contents hk model).imp_of_mem fun {a b} ha hb hab => ?_
  rcases hab with hlt | ⟨htype, i, j, hi, hj, hlt⟩
  · exact .inl hlt
  · refine .inr ⟨htype, ?_⟩
    obtain ⟨a', ha', rfl⟩ := List.mem_map.mp (hperm.mem_iff.mp ha)
    obtain ⟨b', hb', rfl⟩ := List.mem_map.mp (hperm.mem_iff.mp hb)
    obtain ⟨i', hi', -⟩ := h.id_cases ha'
    obtain ⟨j', hj', -⟩ := h.id_cases hb'
    have hia : i' = i := by simpa [Object.loaded, Object.reloaded, hi'] using hi
    have hjb : j' = j := by simpa [Object.loaded, Object.reloaded, hj'] using hj
    exact hboth a' ha' b' hb' htype i j (hia ▸ hi') (hjb ▸ hj') hlt

/-- **What a new model has** are the objects that are saved into it. -/
theorem loaded (h : StoresAll k model db (os.map (·.giveTo model)) saved db') (hk : k.Storable)
    (h' : db'.Sound k) (hnew : ∀ o ∈ os, o.id = none)
    (hle : ∀ {id st}, db.objects.get? id = some st → id ≤ db.lastObject)
    (hempty : ∀ {id st}, db.objects.get? id = some st → st.model ≠ model)
    (hos : os.Pairwise fun a b => a.cimType = b.cimType → a.rdfid < b.rdfid) :
    Loaded os (db'.contents k model) := by
  have hgiven : ∀ o ∈ os.map (·.giveTo model), o.id = none := List.forall_mem_map.mpr hnew
  have hperm := h.perm_contents hk h' hgiven hle hempty
  refine ⟨h.before_contents hk h' hgiven hperm (List.pairwise_map.mpr hos), ?_⟩
  have hloaded : List.Forall₂ Object.Reloads os (saved.map (·.loaded model)) := by
    rw [List.forall₂_map_right_iff]
    refine (List.forall₂_map_left_iff.mp h.savedAs).imp ?_
    rintro o _ ⟨id, rfl, -⟩
    exact ⟨rfl, rfl, rfl⟩
  have hcomp : Relation.Comp (List.Forall₂ Object.Reloads) List.Perm os (db'.contents k model) :=
    ⟨_, hloaded, hperm.symm⟩
  rw [List.forall₂_comp_perm_eq_perm_comp_forall₂] at hcomp
  obtain ⟨qs, hqs, hreloads⟩ := hcomp
  exact ⟨qs, hqs.symm, hreloads⟩

end Database.StoresAll

end CimStore

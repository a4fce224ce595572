import CimStore.Proofs.Orphans
import CimStore.Proofs.Untouched
import Mathlib.Logic.Function.Basic

/-!
# Models that share a store

Models are used side by side: objects are added to one and removed from another, and each is saved
from time to time. `Shared` is their state and `Shared.Run` any interleaving of such steps.

* `Service.mem_contents_saveModel`: what saving a model leaves of the objects of another one;
* `Shared.read_saveModel`: of the objects of the other model exactly those are lost that the saved
  model has in its collection or in its queue, and the others are read as before.

The queue is worked off by class and id, whoever owns the object by then. So an object that was
removed from one model, added to another and saved with that is lost when the first is saved.
-/

namespace CimStore

namespace Model

/-- The collection has the object. -/
def Holds (m : Model) (x : Object) : Prop := ∃ o ∈ m.objects, o.id = x.id

/-- The object is to be deleted when the model is saved. -/
def Queues (m : Model) (x : Object) : Prop :=
  ∃ q ∈ m.orphans, q.cimType = x.cimType ∧ x.id = some q.id

instance (m : Model) (x : Object) : Decidable (m.Holds x) :=
  inferInstanceAs (Decidable (∃ o ∈ m.objects, o.id = x.id))

instance (m : Model) (x : Object) : Decidable (m.Queues x) :=
  inferInstanceAs (Decidable (∃ q ∈ m.orphans, q.cimType = x.cimType ∧ x.id = some q.id))

end Model

/-! ## Saving one model -/

namespace Service

variable {k : Catalog} {s s' : Service}

theorem orphansByType_queues {m : Model} {x : Object} {id : Int} (hid : x.id = some id) :
    (∀ b ∈ (orphansByType m.orphans).entries, ¬(b.1 = x.cimType ∧ id ∈ b.2)) ↔ ¬m.Queues x := by
  have hqueues : m.Queues x ↔ ⟨x.cimType, id⟩ ∈ m.orphans := by
    constructor
    · rintro ⟨q, hq, htype, hxid⟩
      obtain rfl := Option.some.inj (hid.symm.trans hxid)
      exact htype ▸ hq
    · exact fun h => ⟨_, h, rfl, hid⟩
  rw [hqueues, ← mem_orphansByType]
  simp only [not_exists, not_and]

/-- Saving a model stores its name, and no model is lost. -/
theorem models_saveModel (hk : k.Storable) (hs : s.store.classes = k) {m m' : Model}
    {model : Int} (hsave : saveModel m s = ((m', .ok model), s')) :
    s'.store.db.models = s.store.db.models.insert model m.name := by
  rcases saveModel_spec hk hs hsave with ⟨e, hr, -⟩ | ⟨model', pre, pre', post, post', db,
    done, rest, -, -, -, -, -, -, hall, -, hstore, ⟨⟨e, hr⟩, -⟩ | ⟨hr, -⟩⟩
  · exact nomatch hr
  · exact nomatch hr
  obtain rfl : model = model' := Except.ok.inj hr
  rw [hstore]
  exact (Database.Shrinks.dropAll db done).models.trans hall.models.1

/-- **What saving a model leaves of another one**: the objects that the saved model has neither in
its collection nor in its queue. -/
theorem mem_contents_saveModel (hk : k.Storable) (hs : s.store.Sound k) {m m' : Model}
    {model : Int} (hsave : saveModel m s = ((m', .ok model), s')) {n : Int} (hne : n ≠ model)
    {x : Object} :
    x ∈ s'.store.db.contents k n ↔
      x ∈ s.store.db.contents k n ∧ ¬m.Holds x ∧ ¬m.Queues x := by
  rcases saveModel_spec hk hs.classes hsave with ⟨e, hr, -⟩ | ⟨model', pre, pre', post, post', db,
    done, rest, -, -, -, hperm, -, -, hall, hdone, hstore, ⟨⟨e, hr⟩, -⟩ | ⟨hr, rfl, rfl, -⟩⟩
  · exact nomatch hr
  · exact nomatch hr
  obtain rfl : model = model' := Except.ok.inj hr
  rw [List.append_nil] at hperm hdone
  -- No saved object is one of the other model, and other objects are stored as before.
  have hsaved : ∀ id, some id ∈ pre'.map (·.id) → db.object? k id = some x → x.model ≠ some n := by
    intro id hid hx heq
    obtain ⟨st, hst, rfl⟩ := hall.exists_model hid
    obtain ⟨st', hst', -, -, -, hmodel⟩ := Database.object?_some hk hx
    rw [hst, Option.some.injEq] at hst'
    exact hne (Option.some.inj (heq.symm.trans (hst' ▸ hmodel)))
  have hframe : ∀ id, some id ∉ pre'.map (·.id) →
      db.object? k id = s.store.db.object? k id := fun id hid =>
    Database.object?_congr (hall.get?_of_not_mem fun o ho heq =>
      hid (heq ▸ List.mem_map_of_mem (f := (·.id)) ho))
  have hkept : ∀ id, x.id = some id → m.Holds x → some id ∈ pre'.map (·.id) := by
    rintro id hid ⟨o, ho, hoid⟩
    have hpre : (id, o.cimType) ∈ entriesOf (pre.map (·.giveTo model)) := by
      rw [entriesOf_map_giveTo]
      exact mem_entriesOf.mpr ⟨o.giveTo model,
        hperm.mem_iff.mpr (List.mem_map_of_mem (f := (·.giveTo model)) ho), hoid.trans hid, rfl⟩
    obtain ⟨o', ho', hoid', -⟩ := mem_entriesOf.mp (hall.subset_entriesOf hpre)
    exact List.mem_map.mpr ⟨o', ho', hoid'⟩
  rw [hstore, Database.mem_contents_iff_object? hk, Database.mem_contents_iff_object? hk]
  simp only [← hdone, Database.object?_dropAll hk, Option.filter_eq_some_iff, decide_eq_true_eq]
  constructor
  · rintro ⟨id, ⟨hx, hnamed⟩, hid, hn⟩
    have hnot : some id ∉ pre'.map (·.id) := fun hmem => hsaved id hmem hx hn
    exact ⟨⟨id, (hframe id hnot).symm.trans hx, hid, hn⟩, fun hholds => hnot (hkept id hid hholds),
      (orphansByType_queues hid).mp hnamed⟩
  · rintro ⟨⟨id, hx, hid, hn⟩, hholds, hqueues⟩
    have hbefore : ∀ o ∈ pre.map (·.giveTo model), o.id ≠ some id := by
      intro o ho hoid
      obtain ⟨a, ha, rfl⟩ := List.mem_map.mp ho
      obtain ⟨b, hb, rfl⟩ := List.mem_map.mp (hperm.mem_iff.mp ha)
      exact hholds ⟨b, hb, hoid.trans hid.symm⟩
    have hnot : some id ∉ pre'.map (·.id) := by
      intro hmem
      obtain ⟨o', ho', hoid'⟩ := List.mem_map.mp hmem
      obtain ⟨st, hst, -⟩ := Database.object?_some hk hx
      exact hall.id_ne_of_get? (fun hst => hs.db.object_le hst) hst hbefore o' ho' hoid'
    exact ⟨id, ⟨(hframe id hnot).trans hx, (orphansByType_queues hid).mpr hqueues⟩, hid, hn⟩

end Service

/-! ## Models side by side -/

/-- Models in use, and the service that saves them. -/
structure Shared (ι : Type) where
  service : Service
  models : ι → Model

namespace Shared

variable {ι : Type} [DecidableEq ι]

/-- One of the models in another state. -/
def put (s : Shared ι) (i : ι) (m : Model) : Shared ι :=
  { s with models := Function.update s.models i m }

/-- One of the models has been saved, with or without success. -/
def save (s : Shared ι) (i : ι) : Shared ι :=
  { s.put i (Service.saveModel (s.models i) s.service).1.1 with
    service := (Service.saveModel (s.models i) s.service).2 }

/-- What can happen to one of the models. -/
inductive Step : Shared ι → Shared ι → Prop
  /-- An object is added: a new one, or one that any of the models has handed back. -/
  | add {s : Shared ι} (i : ι) (o : Object) : Step s (s.put i ((s.models i).add o))
  /-- An object is removed and handed back. -/
  | remove {s : Shared ι} {i : ι} {rdfid : String} {o : Object} {m : Model} :
      (s.models i).remove rdfid = some (o, m) → Step s (s.put i m)
  | save {s : Shared ι} (i : ι) : Step s (s.save i)

/-- Any interleaving of steps. -/
def Run : Shared ι → Shared ι → Prop := Relation.ReflTransGen Step

variable {k : Catalog} {s s' S : Shared ι}

theorem Step.reachable (h : Step s s') (hs : s.service.Reachable k) : s'.service.Reachable k := by
  cases h with
  | add i o => exact hs
  | remove hrem => exact hs
  | save i => exact hs.perform (.saveModel (s.models i))

theorem Run.reachable (h : Run s s') (hs : s.service.Reachable k) : s'.service.Reachable k := by
  induction h with
  | refl => exact hs
  | tail _ hstep ih => exact hstep.reachable ih

/-- **What saving one model does to another.** Models that share a store are used in any
interleaving, and one of them is saved successfully. Of the objects of any other stored model
exactly those are lost that the saved model has in its collection, which are its own now, or in its
queue; all others are read as before. So an object that is not in the collection is safe just if it
is not in the queue either, and if none of the objects is in one of them, the other model is read
as before. -/
theorem read_saveModel (hk : k.Storable) (hs : s.service.Reachable k) (hrun : Run s S) {i : ι}
    {m' : Model} {model : Int} {after : Service}
    (hsave : Service.saveModel (S.models i) S.service = ((m', .ok model), after)) {n : Int}
    (hne : n ≠ model) (hn : S.service.store.modelExists n = true) :
    ∃ g g' s₁ s₂, Service.read n false S.service = (.ok g, s₁) ∧
      Service.read n false after = (.ok g', s₂) ∧
      g'.objects = g.objects.filter
        (fun x => ¬(S.models i).Holds x ∧ ¬(S.models i).Queues x) ∧
      ((∀ x ∈ g.objects, ¬(S.models i).Holds x → x ∈ g'.objects) ↔
        ∀ x ∈ g.objects, (S.models i).Queues x → (S.models i).Holds x) ∧
      ((∀ x ∈ g.objects, ¬(S.models i).Holds x ∧ ¬(S.models i).Queues x) →
        ∀ linked, ∃ h s₁ s₂, Service.read n linked S.service = (.ok h, s₁) ∧
          Service.read n linked after = (.ok h, s₂)) := by
  have h := (hrun.reachable hs).sound hk
  have h' : after.store.Sound k := by
    have := Service.Keeps.saveModel (Store.invariant_sound hk) (S.models i) S.service h
    rwa [hsave] at this
  have hn' : after.store.modelExists n = true :=
    Service.modelExists_insert (Service.models_saveModel hk h.classes hsave) (.inr hn)
  have hfilter := h.db.contents_eq_filter h'.db hk (n := n)
    (p := fun x => ¬(S.models i).Holds x ∧ ¬(S.models i).Queues x) fun x => by
      rw [Service.mem_contents_saveModel hk h hsave hne, decide_eq_true_eq]
  obtain ⟨s₁, hread₁, -⟩ := Service.read_unlinked h hk hn
  obtain ⟨s₂, hread₂, -⟩ := Service.read_unlinked h' hk hn'
  refine ⟨_, _, s₁, s₂, hread₁, hread₂, ?_, ?_, ?_⟩
  · rw [Service.objects_unlinked, Service.objects_unlinked]
    exact hfilter
  · rw [Service.objects_unlinked, Service.objects_unlinked, hfilter]
    simp only [List.mem_filter, decide_eq_true_eq]
    refine forall_congr' fun x => imp_congr_right fun hx => ?_
    tauto
  · intro hsafe linked
    have hsame : after.store.db.contents k n = S.service.store.db.contents k n := by
      rw [hfilter, List.filter_eq_self]
      exact fun x hx => decide_eq_true (hsafe x (by rwa [Service.objects_unlinked]))
    have hgraph : Service.unlinked k after n = Service.unlinked k S.service n := by
      rw [Service.unlinked, hsame, Service.unlinked]
    cases linked with
    | false => exact ⟨_, s₁, s₂, hread₁, hgraph ▸ hread₂⟩
    | true =>
      obtain ⟨t₁, hlinked₁, -⟩ := Service.read_linked h hk hn
      obtain ⟨t₂, hlinked₂, -⟩ := Service.read_linked h' hk hn'
      exact ⟨_, t₁, t₂, hlinked₁, hgraph ▸ hlinked₂⟩

end Shared

namespace SmallGrid

/-- Two new models. -/
def apart : Shared Bool := ⟨.opened .standard, fun i => .named (if i then "spare" else "grid")⟩

/-- The first model has saved the busbar and handed it back. -/
def givenUp : Shared Bool :=
  ((apart.put false ((apart.models false).add busbar)).save false).put false emptied.model

/-- The other model has taken the busbar over and saved it. -/
def takenOver : Shared Bool :=
  (givenUp.put true ((givenUp.models true).add storedBusbar)).save true

theorem run_takenOver : Shared.Run apart takenOver := by
  have hremove : ((apart.put false ((apart.models false).add busbar)).save false |>.models
      false).remove "_b" = some (storedBusbar, emptied.model) := by decide +kernel
  have hfill : Shared.Step apart _ := .add false busbar
  have hgive : Shared.Step _ givenUp := .remove hremove
  have htake : Shared.Step givenUp _ := .add true storedBusbar
  exact ((((Relation.ReflTransGen.single hfill).tail (.save false)).tail hgive).tail htake).tail
    (.save true)

end SmallGrid

namespace Shared

/-- The first model is saved, and the busbar is gone from the other one. -/
theorem read_saveModel_takenOver : ∃ m' after g g' s₁ s₂,
    Service.saveModel (SmallGrid.takenOver.models false) SmallGrid.takenOver.service =
        ((m', .ok 1), after) ∧
      Service.read 2 false SmallGrid.takenOver.service = (.ok g, s₁) ∧ g.objects.length = 1 ∧
      Service.read 2 false after = (.ok g', s₂) ∧ g'.objects = [] := by
  have hok : (Service.saveModel (SmallGrid.takenOver.models false)
      SmallGrid.takenOver.service).1.2 = .ok 1 := by decide +kernel
  have hn : SmallGrid.takenOver.service.store.modelExists 2 = true := by decide +kernel
  have hqueued : (Service.read 2 false SmallGrid.takenOver.service).1.toOption.any (fun g =>
      g.objects.length = 1 ∧
        ∀ x ∈ g.objects, (SmallGrid.takenOver.models false).Queues x) = true := by
    decide +kernel
  rcases hsave : Service.saveModel (SmallGrid.takenOver.models false)
    SmallGrid.takenOver.service with ⟨⟨m', r⟩, after⟩
  rw [hsave] at hok
  obtain rfl : r = .ok 1 := hok
  obtain ⟨g, g', s₁, s₂, hread, hread', hfilter, -⟩ :=
    Shared.read_saveModel Catalog.standard_storable (Service.Reachable.opened .standard)
      SmallGrid.run_takenOver hsave (n := 2) (by decide) hn
  rw [hread] at hqueued
  obtain ⟨hlength, hall⟩ := of_decide_eq_true hqueued
  refine ⟨m', after, g, g', s₁, s₂, rfl, hread, hlength, hread', ?_⟩
  rw [hfilter, List.filter_eq_nil_iff]
  exact fun x hx => by simp [hall x hx]

end Shared

end CimStore

import CimStore.Model
import Mathlib.Data.List.Induction
import Mathlib.Data.List.Nodup
import Mathlib.Data.List.Perm.Basic

/-!
# What a model keeps and what it hands back

A model is given objects, hands objects back and gets an id, in any order and as often as one likes.
A `Ledger` accounts for every object by the place it has among all that were ever added, so that
objects which are equal, or share an rdf:ID, are told apart:

* `Ledger.remaining` are the objects that were not handed back, `Ledger.back` the places of the
  others in the order of their removal. No place is handed back twice (`Ledger.Proper`), so each
  object either remains or was handed back once (`Ledger.Proper.perm_range`);
* `Custody.Accounted` says what a model is by its ledger; `Custody.Accounted.step` that every change
  keeps it so;
* `Custody.run_accounted`: the model after any history, as a function of the history.
-/

namespace CimStore

/-! ## Owners -/

/-- The object as a model with the id owns it; a model without an id leaves it as it is. -/
def Object.ownedBy (o : Object) : Option Int → Object
  | some id => o.giveTo id
  | none => o

/-- All of an object but its owner. -/
def Object.unowned (o : Object) : Object := { o with model := none }

/-- The orphan that a stored object becomes when its model gives it up. -/
def Object.orphan? (o : Object) : Option Orphan := o.id.map (⟨o.cimType, ·⟩)

namespace Object

variable (o : Object) (id? : Option Int)

@[simp]
theorem rdfid_ownedBy : (o.ownedBy id?).rdfid = o.rdfid := by
  cases id? <;> rfl

@[simp]
theorem orphan?_ownedBy : (o.ownedBy id?).orphan? = o.orphan? := by
  cases id? <;> rfl

@[simp]
theorem unowned_ownedBy : (o.ownedBy id?).unowned = o.unowned := by
  cases id? <;> rfl

@[simp]
theorem giveTo_ownedBy (id : Int) : (o.ownedBy id?).giveTo id = o.ownedBy (some id) := by
  cases id? <;> rfl

end Object

/-! ## One change of a model -/

namespace Model

/-- What is done to a model. -/
inductive Change
  | add (o : Object)
  | remove (rdfid : String)
  | setId (id : Int)
deriving DecidableEq

theorem objects_add (m : Model) (o : Object) :
    (m.add o).objects = m.objects ++ [o.ownedBy m.id] := by
  unfold Model.add Object.ownedBy
  cases m.id <;> rfl

theorem withoutFirst_eq_eraseP (rdfid : String) (os : List Object) :
    withoutFirst rdfid os = os.eraseP (·.rdfid = rdfid) := by
  induction os with
  | nil => rfl
  | cons o os ih =>
    unfold withoutFirst
    by_cases ho : o.rdfid = rdfid <;> simp [ho, ih]

theorem remove_eq_none {m : Model} {rdfid : String} (h : m.get? rdfid = none) :
    m.remove rdfid = none := by
  simp [remove, h]

/-- The object that is handed back leaves the collection, and is queued if it is stored. -/
theorem remove_eq_some {m : Model} {rdfid : String} {o : Object} (h : m.get? rdfid = some o) :
    m.remove rdfid = some (o, { m with
      objects := m.objects.eraseP (·.rdfid = rdfid)
      orphans := m.orphans ++ o.orphan?.toList }) := by
  unfold remove
  rw [h, Option.map_some, withoutFirst_eq_eraseP]
  unfold Object.orphan?
  cases o.id <;> simp

end Model

open Model (Change)

/-! ## Ledgers -/

/-- The id of the model, all objects that were added to it, in order, and the places of those that
were handed back, in the order in which they were. -/
structure Ledger where
  id? : Option Int
  added : List Object := []
  back : List Nat := []

namespace Ledger

/-- The objects that were not handed back, with their places. -/
def remaining (l : Ledger) : List (Object × Nat) :=
  l.added.zipIdx.filter fun e => e.2 ∉ l.back

/-- The first of the remaining objects with the rdf:ID. -/
def first? (l : Ledger) (rdfid : String) : Option (Object × Nat) :=
  l.remaining.find? (·.1.rdfid = rdfid)

/-- Enters a change. -/
def enter (l : Ledger) : Change → Ledger
  | .add o => { l with added := l.added ++ [o] }
  | .remove rdfid => { l with back := l.back ++ ((l.first? rdfid).map (·.2)).toList }
  | .setId id => { l with id? := some id }

/-- The ledger of a model that starts with an id or without one, the oldest change first. -/
def ofChanges (id? : Option Int) (cs : List Change) : Ledger := cs.foldl enter { id? }

/-- Objects that were added are handed back, each once at most. -/
structure Proper (l : Ledger) : Prop where
  lt : ∀ p ∈ l.back, p < l.added.length
  nodup : l.back.Nodup

variable {l : Ledger}

theorem mem_remaining {e : Object × Nat} :
    e ∈ l.remaining ↔ l.added[e.2]? = some e.1 ∧ e.2 ∉ l.back := by
  simp [remaining, List.mem_zipIdx_iff_getElem?]

theorem map_snd_remaining (l : Ledger) :
    l.remaining.map Prod.snd = (List.range l.added.length).filter (· ∉ l.back) := by
  rw [remaining, List.range_eq_range', ← List.zipIdx_map_snd 0 l.added, List.filter_map]
  rfl

theorem nodup_remaining (l : Ledger) : (l.remaining.map Prod.snd).Nodup := by
  rw [map_snd_remaining]
  exact List.nodup_range.filter _

theorem mem_of_first? {rdfid : String} {e : Object × Nat} (h : l.first? rdfid = some e) :
    e ∈ l.remaining ∧ e.1.rdfid = rdfid :=
  ⟨List.mem_of_find?_eq_some h, by simpa using List.find?_some h⟩

theorem Proper.enter (h : l.Proper) (c : Change) : (l.enter c).Proper := by
  cases c with
  | setId id => exact ⟨h.lt, h.nodup⟩
  | add o =>
    refine ⟨fun p hp => ?_, h.nodup⟩
    have hlt := h.lt p hp
    simp only [Ledger.enter, List.length_append]
    omega
  | remove rdfid =>
    cases hfirst : l.first? rdfid with
    | none => simpa [Ledger.enter, hfirst] using h
    | some e =>
      obtain ⟨hget, hnew⟩ := mem_remaining.mp (mem_of_first? hfirst).1
      have hlt : e.2 < l.added.length := (List.getElem?_eq_some_iff.mp hget).1
      constructor
      · intro p hp
        simp only [Ledger.enter, hfirst, Option.map_some, Option.toList_some, List.mem_append,
          List.mem_singleton] at hp ⊢
        rcases hp with hp | rfl
        · exact h.lt p hp
        · exact hlt
      · simp only [Ledger.enter, hfirst, Option.map_some, Option.toList_some]
        rw [← List.concat_eq_append]
        exact h.nodup.concat hnew

/-- **Every object remains or was handed back, and none is both.** -/
theorem Proper.perm_range (h : l.Proper) :
    (l.remaining.map Prod.snd ++ l.back).Perm (List.range l.added.length) := by
  have hdisjoint : (l.remaining.map Prod.snd).Disjoint l.back := by
    rw [map_snd_remaining]
    intro p hp
    simpa using (List.mem_filter.mp hp).2
  rw [List.perm_ext_iff_of_nodup (List.Nodup.append l.nodup_remaining h.nodup hdisjoint)
    List.nodup_range]
  intro p
  have hlt := h.lt p
  simp only [map_snd_remaining, List.mem_append, List.mem_filter, List.mem_range, decide_not,
    Bool.not_eq_true', decide_eq_false_iff_not]
  tauto

theorem Proper.remaining_add (h : l.Proper) (o : Object) :
    (l.enter (.add o)).remaining = l.remaining ++ [(o, l.added.length)] := by
  have hnew : l.added.length ∉ l.back := fun hmem => Nat.lt_irrefl _ (h.lt _ hmem)
  rw [remaining, Ledger.enter, List.zipIdx_append, List.filter_append]
  simp [remaining, hnew]

/-- The first object that a test accepts is dropped by its place alone. -/
theorem eraseP_eq_filter {p : Object × Nat → Bool} {es : List (Object × Nat)} {e : Object × Nat}
    (hnodup : (es.map Prod.snd).Nodup) (h : es.find? p = some e) :
    es.eraseP p = es.filter (·.2 ≠ e.2) := by
  induction es with
  | nil => exact nomatch h
  | cons a es ih =>
    rw [List.map_cons, List.nodup_cons] at hnodup
    have hne : ∀ b ∈ es, b.2 ≠ a.2 := fun b hb heq =>
      hnodup.1 (heq ▸ List.mem_map_of_mem (f := Prod.snd) hb)
    by_cases ha : p a = true
    · rw [List.find?_cons_of_pos ha, Option.some.injEq] at h
      subst h
      rw [List.eraseP_cons_of_pos ha, List.filter_cons_of_neg (by simp), eq_comm,
        List.filter_eq_self]
      exact fun b hb => decide_eq_true (hne b hb)
    · rw [List.find?_cons_of_neg ha] at h
      have he := (hne e (List.mem_of_find?_eq_some h)).symm
      rw [List.eraseP_cons_of_neg ha, ih hnodup.2 h, List.filter_cons_of_pos (by simpa using he)]

theorem remaining_remove {rdfid : String} {e : Object × Nat} (h : l.first? rdfid = some e) :
    (l.enter (.remove rdfid)).remaining = l.remaining.eraseP (·.1.rdfid = rdfid) := by
  rw [eraseP_eq_filter l.nodup_remaining h]
  simp [remaining, Ledger.enter, h, List.filter_filter, and_comm]

end Ledger

/-! ## Histories -/

/-- A model, and all that it has handed back, in order. -/
structure Custody where
  model : Model
  handedBack : List Object := []

namespace Custody

/-- What a change makes of the model. A removal hands back the object that is found. -/
def step (c : Custody) : Change → Custody
  | .add o => { c with model := c.model.add o }
  | .setId id => { c with model := c.model.setId id }
  | .remove rdfid =>
    match c.model.remove rdfid with
    | some (o, m) => ⟨m, c.handedBack ++ [o]⟩
    | none => c

/-- A model after a history, the oldest change first. -/
def run (m : Model) (cs : List Change) : Custody := cs.foldl step ⟨m, []⟩

/-- What every change keeps. -/
structure Follows (l : Ledger) (c : Custody) : Prop where
  proper : l.Proper
  id : c.model.id = l.id?
  objects : c.model.objects = l.remaining.map fun e => e.1.ownedBy l.id?
  handedBack : List.Forall₂ (fun p o => ∃ a, l.added[p]? = some a ∧ o.unowned = a.unowned)
    l.back c.handedBack
  orphans : c.model.orphans = c.handedBack.filterMap Object.orphan?

/-- The model is what the ledger says. -/
structure Accounted (l : Ledger) (c : Custody) : Prop extends Follows l c where
  /-- A model with an id owns all objects of its collection. -/
  owner : ∀ id, c.model.id = some id → ∀ o ∈ c.model.objects, o.model = some id
  /-- No object is lost, duplicated or altered, but for its owner. -/
  perm : ((c.model.objects ++ c.handedBack).map Object.unowned).Perm (l.added.map Object.unowned)
  /-- The first of the remaining objects with an rdf:ID is what is found. -/
  get? : ∀ rdfid, c.model.get? rdfid = (l.first? rdfid).map fun e => e.1.ownedBy l.id?
  /-- It is what a removal hands back. -/
  remove : ∀ rdfid, (c.model.remove rdfid).map Prod.fst = c.model.get? rdfid

variable {l : Ledger} {c : Custody}

theorem Follows.get? (h : Follows l c) (rdfid : String) :
    c.model.get? rdfid = (l.first? rdfid).map fun e => e.1.ownedBy l.id? := by
  have hsame : (fun o : Object => decide (o.rdfid = rdfid)) ∘ (fun e => e.1.ownedBy l.id?) =
      fun e : Object × Nat => decide (e.1.rdfid = rdfid) := by
    funext e
    rw [Function.comp_apply, Object.rdfid_ownedBy]
  rw [Model.get?, h.objects, List.find?_map, hsame]
  rfl

theorem Follows.add (h : Follows l c) (o : Object) :
    Follows (l.enter (.add o)) (c.step (.add o)) where
  proper := h.proper.enter _
  id := h.id
  objects := by
    show (c.model.add o).objects = _
    rw [Model.objects_add, h.proper.remaining_add, List.map_append, h.objects, h.id]
    rfl
  handedBack := by
    refine h.handedBack.imp fun p b ⟨a, ha, hb⟩ => ⟨a, ?_, hb⟩
    obtain ⟨hlt, -⟩ := List.getElem?_eq_some_iff.mp ha
    exact (List.getElem?_append_left hlt).trans ha
  orphans := h.orphans

theorem Follows.setId (h : Follows l c) (id : Int) :
    Follows (l.enter (.setId id)) (c.step (.setId id)) where
  proper := h.proper.enter _
  id := rfl
  objects := by
    show c.model.objects.map (·.giveTo id) = l.remaining.map fun e => e.1.ownedBy (some id)
    rw [h.objects, List.map_map]
    simp
  handedBack := h.handedBack
  orphans := h.orphans

theorem Follows.remove (h : Follows l c) (rdfid : String) :
    Follows (l.enter (.remove rdfid)) (c.step (.remove rdfid)) := by
  have hget := h.get? rdfid
  cases hfirst : l.first? rdfid with
  | none =>
    -- There is no such object: nothing changes.
    rw [hfirst, Option.map_none] at hget
    have hledger : l.enter (.remove rdfid) = l := by simp [Ledger.enter, hfirst]
    have hcustody : c.step (.remove rdfid) = c := by simp [step, Model.remove_eq_none hget]
    rwa [hledger, hcustody]
  | some e =>
    rw [hfirst, Option.map_some] at hget
    obtain ⟨hadded, -⟩ := Ledger.mem_remaining.mp (Ledger.mem_of_first? hfirst).1
    have hback : (l.enter (.remove rdfid)).back = l.back ++ [e.2] := by simp [Ledger.enter, hfirst]
    refine ⟨h.proper.enter _, ?_, ?_, ?_, ?_⟩ <;> simp only [step, Model.remove_eq_some hget]
    · exact h.id
    · rw [Ledger.remaining_remove hfirst, h.objects, List.eraseP_map]
      simp [Ledger.enter, Function.comp_def]
    · rw [hback]
      exact List.rel_append h.handedBack (.cons ⟨e.1, hadded, by simp⟩ .nil)
    · rw [h.orphans, List.filterMap_append]
      cases horphan : e.1.orphan? <;> simp [horphan]

/-- **Every change keeps the model to its ledger.** -/
theorem Follows.step (h : Follows l c) (change : Change) :
    Follows (l.enter change) (c.step change) := by
  cases change with
  | add o => exact h.add o
  | remove rdfid => exact h.remove rdfid
  | setId id => exact h.setId id

theorem follows_run (id? : Option Int) (name : Option String) (cs : List Change) :
    Follows (Ledger.ofChanges id? cs) (run { id := id?, name := name } cs) := by
  induction cs using List.reverseRecOn with
  | nil => exact ⟨⟨by simp [Ledger.ofChanges], List.nodup_nil⟩, rfl, rfl, .nil, rfl⟩
  | append_singleton cs change ih =>
    rw [Ledger.ofChanges, run, List.foldl_concat, List.foldl_concat]
    exact ih.step change

/-- The objects that remain and those that were handed back are those that were added. -/
theorem Follows.perm (h : Follows l c) :
    ((c.model.objects ++ c.handedBack).map Object.unowned).Perm
      (l.added.map Object.unowned) := by
  -- Places are read off the list of what was added.
  have hread : ∀ es : List (Object × Nat), (∀ e ∈ es, l.added[e.2]? = some e.1) →
      (es.map Prod.snd).filterMap (fun p => (l.added[p]?).map Object.unowned) =
        es.map fun e => e.1.unowned := by
    intro es hes
    rw [List.filterMap_map, ← List.filterMap_eq_map]
    exact List.filterMap_congr fun e he => by simp [hes e he]
  have hadded := hread l.added.zipIdx fun e he => List.mem_zipIdx_iff_getElem?.mp he
  have hkept := hread l.remaining fun e he => (Ledger.mem_remaining.mp he).1
  have hback : ∀ {ps : List Nat} {os : List Object},
      List.Forall₂ (fun p o => ∃ a, l.added[p]? = some a ∧ o.unowned = a.unowned) ps os →
      ps.filterMap (fun p => (l.added[p]?).map Object.unowned) = os.map Object.unowned := by
    intro ps os hforall
    induction hforall with
    | nil => rfl
    | cons hp _ ih =>
      obtain ⟨a, ha, hunowned⟩ := hp
      simp [ha, hunowned, ih]
  have hplaces := h.proper.perm_range.filterMap fun p => (l.added[p]?).map Object.unowned
  rw [List.filterMap_append, hkept, hback h.handedBack, List.range_eq_range',
    ← List.zipIdx_map_snd 0 l.added, hadded] at hplaces
  rw [List.map_append, h.objects, List.map_map]
  have hfst : l.added.zipIdx.map (fun e => e.1.unowned) = l.added.map Object.unowned := by
    conv_rhs => rw [← List.zipIdx_map_fst 0 l.added, List.map_map]
    rfl
  simpa [hfst, Function.comp_def] using hplaces

theorem Follows.accounted (h : Follows l c) : Accounted l c where
  toFollows := h
  owner id hid o ho := by
    rw [h.objects, ← h.id, hid] at ho
    obtain ⟨e, -, rfl⟩ := List.mem_map.mp ho
    rfl
  perm := h.perm
  get? := h.get?
  remove rdfid := by
    unfold Model.remove
    rw [Option.map_map]
    exact Option.map_id'

theorem name_step (c : Custody) (change : Change) :
    (c.step change).model.name = c.model.name := by
  cases change with
  | add o => rfl
  | setId id => rfl
  | remove rdfid =>
    cases hget : c.model.get? rdfid with
    | none => simp [step, Model.remove_eq_none hget]
    | some o => simp [step, Model.remove_eq_some hget]

theorem name_run (m : Model) (cs : List Change) : (run m cs).model.name = m.name := by
  induction cs using List.reverseRecOn with
  | nil => rfl
  | append_singleton cs change ih =>
    rw [run, List.foldl_concat]
    exact (name_step ..).trans ih

/-- **What a model keeps and hands back is a function of its history.** The collection are the
objects that were added, in order, but for those handed back; a removal hands back the first of them
with the rdf:ID, if there is one; the queue are the stored ones of those handed back, in order; and
once the model has an id it owns all that it has. -/
theorem run_accounted (id? : Option Int) (name : Option String) (cs : List Change) :
    Accounted (Ledger.ofChanges id? cs) (run { id := id?, name := name } cs) ∧
      (run { id := id?, name := name } cs).model.name = name :=
  ⟨(follows_run id? name cs).accounted, name_run _ cs⟩

end Custody

end CimStore

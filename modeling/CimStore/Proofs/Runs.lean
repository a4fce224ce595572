import CimStore.Proofs.Reporting
import CimStore.Proofs.Soundness

/-!
# Runs of a store and its service

An `Op` is one call to a store or to its service, whatever it answers. A service is reached from an
empty store by running a list of them (`Service.Reachable`).

* `Service.Keeps` says of one operation that it keeps a property of the store; what is built of
  operations that keep it does so too (`Store.Invariant`).
* `Service.Reachable.of_invariant`: what every operation of a store keeps (`Store.RunInvariant`)
  holds of all stores that are reached, those of failing operations included.
* `Service.Reachable.sound`: every store that is reached is sound.

`SmallGrid.service` is such a service, reached through calls that fail and calls that are undone.
-/

namespace CimStore

/-- A call to a store or to its service. -/
inductive Op
  | begin
  | commit
  | rollBack
  /-- The store is closed and opened again. -/
  | reopen
  | putModel (m : Model)
  | dropModel (id : Int)
  | saveBatch (cimType : String) (os : List Object)
  | loadBatch (cimType : String) (ids : List Int)
  | deleteBatch (cimType : String) (ids : List Int)
  | saveObjects (m : Model) (os : List Object)
  | saveObject (m : Model) (o : Object)
  | saveModel (m : Model)
  | savePayload (known : Catalog) (m : Model) (payload : String)
  | infos (model : Int)
  | inventory (model : Int)
  | read (model : Int) (linked : Bool)
  | delete (model : Int)

/-- Whether the call begins or ends a transaction or opens the store again. -/
def Op.isControl : Op → Bool
  | begin | commit | rollBack | reopen => true
  | _ => false

/-- Every operation that writes to a store keeps the property. -/
structure Store.Invariant (P : Store → Prop) : Prop where
  saveModel : ∀ {s} m, P s → P (s.saveModel m).2
  deleteModel : ∀ {s} id, P s → P (s.deleteModel id).2
  saveBatch : ∀ {s} cimType os, P s → P (s.saveBatch cimType os).2
  deleteBatch : ∀ {s s' cimType ids}, P s → s.deleteBatch cimType ids = .ok s' → P s'

/-- Beginning and ending a transaction and opening the store again keep it too. -/
structure Store.RunInvariant (P : Store → Prop) : Prop extends Store.Invariant P where
  begin : ∀ {s s'}, P s → s.begin = .ok s' → P s'
  commit : ∀ {s s'}, P s → s.commit = .ok s' → P s'
  rollBack : ∀ {s s'}, P s → s.rollBack = .ok s' → P s'
  reopen : ∀ {s}, P s → P (s.reopen s.classes)

theorem Store.invariant_sound {k : Catalog} (hk : k.Storable) :
    Store.Invariant (Store.Sound k) where
  saveModel m h := h.saveModel m
  deleteModel id h := h.deleteModel id
  saveBatch cimType os h := h.saveBatch hk cimType os
  deleteBatch h hs := h.deleteBatch hs

theorem Store.runInvariant_sound {k : Catalog} (hk : k.Storable) :
    Store.RunInvariant (Store.Sound k) where
  toInvariant := invariant_sound hk
  begin := Sound.begin
  commit := Sound.commit
  rollBack := Sound.rollBack
  reopen h := by
    rw [h.classes]
    exact h.reopen

/-- Two operations, one after the other. -/
theorem bind_eq {σ α β : Type} {f : StateM σ α} {g : α → StateM σ β} {s s' : σ} {a : α}
    (h : f s = (a, s')) : (f >>= g) s = g a s' := by
  show g (f s).1 (f s).2 = _
  rw [h]

namespace Service

/-- An operation for what it does to the service, its answer left aside. -/
def run {α : Type} (f : StateM Service α) (s : Service) : Service := (f s).2

end Service

/-- The service after the call. -/
def Op.perform (op : Op) (s : Service) : Service :=
  match op with
  | begin => Service.run (Service.tryStore Store.begin) s
  | commit => Service.run (Service.tryStore Store.commit) s
  | rollBack => Service.run (Service.tryStore Store.rollBack) s
  | reopen => { s with store := s.store.reopen s.store.classes }
  | putModel m => Service.run (Service.onStore (Store.saveModel m)) s
  | dropModel id => Service.run (Service.onStore (·.deleteModel id)) s
  | saveBatch cimType os => Service.run (Service.onStore (Store.saveBatch cimType os)) s
  | loadBatch cimType ids => Service.run (Service.loadBatch cimType ids) s
  | deleteBatch cimType ids => Service.run (Service.deleteBatch cimType ids) s
  | saveObjects m os => Service.run (Service.saveObjects m os) s
  | saveObject m o => Service.run (Service.saveObject m o) s
  | saveModel m => Service.run (Service.saveModel m) s
  | savePayload known m payload => Service.run (Service.savePayload known m payload) s
  | infos model => Service.run (Service.objectInfos model) s
  | inventory model => Service.run (Service.inventory model) s
  | read model linked => Service.run (Service.read model linked) s
  | delete model => Service.run (Service.delete model) s

namespace Service

/-- A service on an empty store that knows the classes of the catalog. -/
def opened (k : Catalog) : Service := { store := { classes := k } }

theorem get_eq (s : Service) : (get : StateM Service Service) s = (s, s) := rfl

theorem persist_eq (m : Model) : persist m =
    note (.saveModel m.id) >>= fun _ => onStore (Store.saveModel m) >>= fun
      | .ok id => pure (m.setId id, .ok id)
      | .error e => pure (m, .error e) := rfl

theorem saveBatches_cons (model : Int) (b : Batch) (bs : List Batch) :
    saveBatches model (b :: bs) =
      note (.saveBatch b.cimType ((b.objects.map (·.giveTo model)).map (·.rdfid))) >>= fun _ =>
        onStore (Store.saveBatch b.cimType (b.objects.map (·.giveTo model))) >>= fun out =>
          match out.2 with
          | .error e => pure (out.1 ++ bs.flatMap (·.objects), .error e)
          | .ok () => saveBatches model bs >>= fun rest => pure (out.1 ++ rest.1, rest.2) := rfl

theorem saveObjects_eq (m : Model) (os : List Object) : saveObjects m os = persist m >>= fun
    | (m, .error e) => pure (m, .error e)
    | (m, .ok id) => saveBatches id (groupByType os) >>= fun out =>
      pure (m, out.2.map fun () => out.1) := rfl

/-- The service after the calls, in order. -/
def perform (s : Service) (ops : List Op) : Service := ops.foldl (fun s op => op.perform s) s

/-- The service is reached from an empty store. -/
def Reachable (k : Catalog) (s : Service) : Prop := ∃ ops, s = (opened k).perform ops

/-! ## What an operation keeps -/

/-- Whatever the operation answers, the property of the store is kept. -/
def Keeps {α : Type} (P : Store → Prop) (f : StateM Service α) : Prop :=
  ∀ s : Service, P s.store → P (f s).2.store

namespace Keeps

variable {α β : Type} {P : Store → Prop}

theorem pure (a : α) : Keeps P (Pure.pure a : StateM Service α) := fun _ h => h

theorem bind {f : StateM Service α} {g : α → StateM Service β} (hf : Keeps P f)
    (hg : ∀ a, Keeps P (g a)) : Keeps P (f >>= g) := fun s h => hg (f s).1 (f s).2 (hf s h)

theorem get : Keeps P (MonadState.get : StateM Service Service) := fun _ h => h

theorem note (c : Call) : Keeps P (note c) := fun _ h => h

theorem onStore {f : StateM Store α} (hf : ∀ st, P st → P (f st).2) : Keeps P (onStore f) :=
  fun s h => hf s.store h

theorem tryStore {f : Store → Except Error Store} (hf : ∀ st st', P st → f st = .ok st' → P st') :
    Keeps P (tryStore f) := by
  intro s h
  unfold Service.tryStore
  split
  · rename_i st hst
    exact hf s.store st h hst
  · exact h

theorem findObjects (model : Int) : Keeps P (findObjects model) :=
  bind (note _) fun _ => bind get fun _ => pure _

theorem inventory (model : Int) : Keeps P (inventory model) :=
  bind (findObjects model) fun _ => pure _

theorem objectInfos (model : Int) : Keeps P (objectInfos model) :=
  bind (findObjects model) fun _ => pure _

theorem loadBatch (cimType : String) (ids : List Int) : Keeps P (loadBatch cimType ids) :=
  bind (note _) fun _ => bind get fun _ => pure _

theorem loadInto (g : Graph) (batches : List (String × List Int)) :
    Keeps P (loadInto g batches) := by
  induction batches generalizing g with
  | nil => exact pure _
  | cons b bs ih =>
    refine bind (loadBatch b.1 b.2) fun result => ?_
    cases result with
    | error e => exact pure _
    | ok os => exact ih _

theorem link (g : Graph) : Keeps P (link g) := fun s h => by
  rw [Service.link_eq]
  exact h

theorem read (model : Int) (linked : Bool) : Keeps P (read model linked) := by
  refine bind get fun s => ?_
  split
  · exact pure _
  · refine bind (inventory model) fun infos => bind (loadInto _ _) fun result => ?_
    cases result with
    | error e => exact pure _
    | ok g =>
      cases linked with
      | true => exact bind (link g) fun _ => pure _
      | false => exact pure _

/-! ### Operations that write -/

section Write

variable (hP : Store.Invariant P)

include hP

theorem deleteBatch (cimType : String) (ids : List Int) : Keeps P (deleteBatch cimType ids) :=
  bind (note _) fun _ => tryStore fun _ _ => hP.deleteBatch

theorem deleteAll (batches : List (String × List Int)) : Keeps P (deleteAll batches) := by
  induction batches with
  | nil => exact pure _
  | cons b bs ih =>
    refine bind (deleteBatch hP b.1 b.2) fun result => ?_
    cases result with
    | error e => exact pure _
    | ok _ => exact ih

theorem delete (model : Int) : Keeps P (delete model) := by
  refine bind get fun s => ?_
  split
  · exact pure _
  · refine bind (inventory model) fun infos => bind (deleteAll hP _) fun result => ?_
    cases result with
    | error e => exact pure _
    | ok _ => exact bind (note _) fun _ => onStore fun _ => hP.deleteModel model

theorem persist (m : Model) : Keeps P (persist m) := by
  rw [persist_eq]
  refine bind (note _) fun _ => bind (onStore fun _ => hP.saveModel m) fun result => ?_
  cases result <;> exact pure _

theorem saveBatches (model : Int) (bs : List Batch) : Keeps P (saveBatches model bs) := by
  induction bs with
  | nil => exact pure _
  | cons b bs ih =>
    rw [saveBatches_cons]
    refine bind (note _) fun _ => bind (onStore fun _ => hP.saveBatch _ _) fun result => ?_
    obtain ⟨os, result⟩ := result
    cases result with
    | error e => exact pure _
    | ok _ => exact bind ih fun _ => pure _

theorem saveObjects (m : Model) (os : List Object) : Keeps P (saveObjects m os) := by
  rw [saveObjects_eq]
  refine bind (persist hP m) fun result => ?_
  obtain ⟨m, result⟩ := result
  cases result with
  | error e => exact pure _
  | ok id => exact bind (saveBatches hP id _) fun _ => pure _

theorem saveObject (m : Model) (o : Object) : Keeps P (saveObject m o) :=
  bind (saveObjects hP m [o]) fun _ => pure _

theorem saveModel (m : Model) : Keeps P (saveModel m) := by
  refine bind (persist hP m) fun result => ?_
  obtain ⟨m, result⟩ := result
  cases result with
  | error e => exact pure _
  | ok id =>
    refine bind (saveBatches hP id _) fun result => ?_
    obtain ⟨os, result⟩ := result
    cases result with
    | error e => exact pure _
    | ok _ =>
      refine bind (deleteAll hP _) fun result => ?_
      cases result <;> exact pure _

theorem savePayload (known : Catalog) (m : Model) (payload : String) :
    Keeps P (savePayload known m payload) := by
  unfold Service.savePayload
  cases readObjects known payload with
  | error e => exact pure _
  | ok objects =>
    refine bind (saveObjects hP m objects.values) fun result => ?_
    obtain ⟨m, result⟩ := result
    cases result with
    | error e => exact pure _
    | ok os =>
      obtain ⟨id, _, _, _⟩ := m
      cases id with
      | none => exact pure _
      | some id => exact bind (inventory id) fun _ => pure _

end Write

end Keeps

/-! ## Runs -/

variable {P : Store → Prop} {k : Catalog} {s : Service}

/-- A call that does no more than write keeps what writing keeps. -/
theorem perform_writes (hP : Store.Invariant P) {op : Op} (hop : op.isControl = false)
    (h : P s.store) : P (op.perform s).store := by
  cases op with
  | begin => exact nomatch hop
  | commit => exact nomatch hop
  | rollBack => exact nomatch hop
  | reopen => exact nomatch hop
  | putModel m => exact Keeps.onStore (fun _ => hP.saveModel m) s h
  | dropModel id => exact Keeps.onStore (fun _ => hP.deleteModel id) s h
  | saveBatch cimType os => exact Keeps.onStore (fun _ => hP.saveBatch cimType os) s h
  | loadBatch cimType ids => exact Keeps.loadBatch cimType ids s h
  | deleteBatch cimType ids => exact Keeps.deleteBatch hP cimType ids s h
  | saveObjects m os => exact Keeps.saveObjects hP m os s h
  | saveObject m o => exact Keeps.saveObject hP m o s h
  | saveModel m => exact Keeps.saveModel hP m s h
  | savePayload known m payload => exact Keeps.savePayload hP known m payload s h
  | infos model => exact Keeps.objectInfos model s h
  | inventory model => exact Keeps.inventory model s h
  | read model linked => exact Keeps.read model linked s h
  | delete model => exact Keeps.delete hP model s h

theorem perform_keeps (hP : Store.RunInvariant P) (op : Op) (h : P s.store) :
    P (op.perform s).store := by
  cases op with
  | begin => exact Keeps.tryStore (fun _ _ => hP.begin) s h
  | commit => exact Keeps.tryStore (fun _ _ => hP.commit) s h
  | rollBack => exact Keeps.tryStore (fun _ _ => hP.rollBack) s h
  | reopen => exact hP.reopen h
  | _ => exact perform_writes hP.toInvariant rfl h

/-- **What every operation of a store keeps holds in every state that is reached.** -/
theorem Reachable.of_invariant (hP : Store.RunInvariant P) (h0 : P { classes := k })
    (h : Reachable k s) : P s.store := by
  obtain ⟨ops, rfl⟩ := h
  have hrun : ∀ s : Service, P s.store → P (s.perform ops).store := by
    induction ops with
    | nil => exact fun _ h => h
    | cons op ops ih => exact fun s h => ih _ (perform_keeps hP op h)
  exact hrun _ h0

theorem Reachable.sound (hk : k.Storable) (h : Reachable k s) : s.store.Sound k :=
  h.of_invariant (Store.runInvariant_sound hk) (.empty k)

theorem Reachable.opened (k : Catalog) : Reachable k (opened k) := ⟨[], rfl⟩

theorem Reachable.performs (h : Reachable k s) (ops : List Op) : Reachable k (s.perform ops) := by
  obtain ⟨ops₀, rfl⟩ := h
  refine ⟨ops₀ ++ ops, ?_⟩
  unfold Service.perform
  rw [List.foldl_append]

theorem Reachable.perform (h : Reachable k s) (op : Op) : Reachable k (op.perform s) :=
  h.performs [op]

end Service

/-! ## A small grid -/

namespace SmallGrid

/-- A new object with values. -/
def object (c : CimClass) (rdfid : String) (values : List (String × String)) : Object :=
  values.foldl (fun o v => (o.set v.1 v.2).toOption.getD o) { Object.new c with rdfid }

def node (rdfid : String) : Object := object .topologicalNode rdfid [("name", "north bus")]

/-- A line in itself as its container. -/
def line : Object :=
  object .acLineSegment "_l" [("EquipmentContainer", "_l"), ("r", "0.1"), ("x", "-0"),
    ("aggregate", "true")]

/-- An island of a node that is stored with it, one that is not, and a line that is no node. -/
def island : Object :=
  object .topologicalIsland "_i" [("name", "north"), ("TopologicalNodes", "_n1"),
    ("TopologicalNodes", "_n2"), ("TopologicalNodes", "_l"), ("AngleRefTopologicalNode", "_n1")]

/-- A model of the island, the line and a node. Then, in a transaction, a model of two nodes with
one rdf:ID, which fails at the second; another model of the node that the island misses; and the
island's id among those of terminals to delete. -/
def ops : List Op :=
  [.saveObjects (.named "grid") [island, line, node "_n1"], .begin,
    .saveObjects (.named "spare") [node "_n1", node "_n1"], .rollBack,
    .saveObjects (.named "other") [node "_n2"], .deleteBatch "Terminal" [1]]

/-- A service that has stored the grid as its first model. -/
def service : Service := (Service.opened .standard).perform ops

theorem reachable_service : service.Reachable .standard := ⟨ops, rfl⟩

theorem modelExists_service : service.store.modelExists 1 = true := by decide +kernel

theorem findObjects_service : service.store.findObjects 1 =
    [(1, "TopologicalIsland"), (2, "ACLineSegment"), (3, "TopologicalNode")] := by
  decide +kernel

end SmallGrid

end CimStore

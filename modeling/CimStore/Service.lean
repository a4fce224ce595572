import CimStore.Directory
import CimStore.Link.Pass
import CimStore.Payload.Objects
import CimStore.Store

/-!
# The model service

Saving, reading and deleting whole models. The service talks to its store one class at a time:
saving splits the objects by class, reading loads every class of the model and links afterwards.

A `Service` is the store with a record of the calls made to it and of the link diagnostics reported.
Its operations are state transformers; what one has done to the store before it fails stays done.
-/

namespace CimStore

/-- A call to the store, as it is noted before it runs. -/
inductive Call
  | saveModel (id : Option Int)
  | saveBatch (cimType : String) (rdfids : List String)
  | loadBatch (cimType : String) (ids : List Int)
  | deleteBatch (cimType : String) (ids : List Int)
  | deleteModel (id : Int)
  | findObjects (model : Int)
deriving DecidableEq, Repr

structure Service where
  store : Store
  /-- The calls in order. -/
  calls : List Call := []
  /-- The diagnostics in order. -/
  diagnostics : List LinkDiagnostic := []
deriving DecidableEq

namespace Service

/-! ## Calls to the store -/

/-- Notes a call. -/
def note (c : Call) : StateM Service Unit :=
  modify fun s => { s with calls := s.calls ++ [c] }

/-- Runs an operation on the store. -/
def onStore {α : Type} (f : StateM Store α) : StateM Service α := fun s =>
  let (a, store) := f s.store
  (a, { s with store })

/-- Runs an operation that leaves the store as it is if it fails. -/
def tryStore (f : Store → Except Error Store) : StateM Service (Except Error Unit) := fun s =>
  match f s.store with
  | .ok store => (.ok (), { s with store })
  | .error e => (.error e, s)

def findObjects (model : Int) : StateM Service (List (Int × String)) := do
  note (.findObjects model)
  return (← get).store.findObjects model

def loadBatch (cimType : String) (ids : List Int) :
    StateM Service (Except Error (List Object)) := do
  note (.loadBatch cimType ids)
  return (← get).store.loadBatch cimType ids

def deleteBatch (cimType : String) (ids : List Int) : StateM Service (Except Error Unit) := do
  note (.deleteBatch cimType ids)
  tryStore (·.deleteBatch cimType ids)

/-! ## Inventory -/

/-- The class of every object of a model, by id. -/
def objectInfos (model : Int) : StateM Service (SortedMap Int String) := do
  return SortedMap.ofList (← findObjects model)

/-- The ids of a list of objects by class, in the order of the list. -/
def idsByType (infos : List (Int × String)) : SortedMap String (List Int) :=
  infos.foldl (fun m e => m.alter e.2 fun ids => ids.getD [] ++ [e.1]) SortedMap.empty

/-- The ids of the objects of a model by class, ascending. -/
def inventory (model : Int) : StateM Service (SortedMap String (List Int)) := do
  return idsByType (← findObjects model)

/-! ## Saving -/

/-- The store, with each call noted before it runs. -/
def directory : Directory Service where
  saveModel m := do
    note (.saveModel m.id)
    onStore (Store.saveModel m)
  saveBatch cimType os := do
    note (.saveBatch cimType (os.map (·.rdfid)))
    onStore (Store.saveBatch cimType os)

/-- Stores the row of a model and gives the model, and its collection, the id. -/
def persist (m : Model) : StateM Service (Model × Except Error Int) := directory.persist m

/-- Saves batches into a model, in order, up to the first that fails. -/
def saveBatches (model : Int) (bs : List Batch) :
    StateM Service (List Object × Except Error Unit) := directory.saveBatches model bs

/-- Saves a model and then objects into it, one batch per class. -/
def saveObjects (m : Model) (os : List Object) :
    StateM Service (Model × Except Error (List Object)) := directory.saveObjects m os

/-- Saves a model and one object into it. -/
def saveObject (m : Model) (o : Object) : StateM Service (Model × Except Error Object) := do
  let (m, result) ← saveObjects m [o]
  return (m, result.bind fun os =>
    match os.getLast? with
    | some o => .ok o
    | none => .error (.missingModel o.rdfid))

/-- Deletes objects class by class, up to the first class that fails. -/
def deleteAll : List (String × List Int) → StateM Service (Except Error Unit)
  | [] => return .ok ()
  | (cimType, ids) :: rest => do
    match ← deleteBatch cimType ids with
    | .error e => return .error e
    | .ok () => deleteAll rest

/-- The ids of orphans by class, in the order of their removal. -/
def orphansByType (orphans : List Orphan) : SortedMap String (List Int) :=
  idsByType (orphans.map fun o => (o.id, o.cimType))

/-- Saves a model with its collection, then deletes its orphans. The collection is put in the order
of the batches. If an error ends it, the collection has every object, those that were saved with
their ids, and the orphans stay noted. -/
def saveModel (m : Model) : StateM Service (Model × Except Error Int) := do
  match ← persist m with
  | (m, .error e) => return (m, .error e)
  | (m, .ok id) =>
    let (os, result) ← saveBatches id (groupByType m.objects)
    let m := { m with objects := os }
    match result with
    | .error e => return (m, .error e)
    | .ok () =>
      match ← deleteAll (orphansByType m.orphans).entries with
      | .error e => return (m, .error e)
      | .ok () => return ({ m with orphans := [] }, .ok id)

/-- Saves a model and the objects of a payload into it, in the order of their rdf:IDs. -/
def savePayload (known : Catalog) (m : Model) (payload : String) :
    StateM Service (Model × Except Error (List Object)) := do
  match readObjects known payload with
  | .error e => return (m, .error e)
  | .ok objects =>
    match ← saveObjects m objects.values with
    | (m, .error e) => return (m, .error e)
    | (m, .ok os) =>
      if let some id := m.id then
        let _ ← inventory id
      return (m, .ok os)

/-! ## Reading -/

/-- Loads the objects of a graph class by class, up to the first class that fails. -/
def loadInto (g : Graph) : List (String × List Int) → StateM Service (Except Error Graph)
  | [] => return .ok g
  | (cimType, ids) :: rest => do
    match ← loadBatch cimType ids with
    | .error e => return .error e
    | .ok os => loadInto (g.insertAll os) rest

/-- The sink of the service. -/
def emit (d : LinkDiagnostic) : StateM Service Unit :=
  modify fun s => { s with diagnostics := s.diagnostics ++ [d] }

/-- Links a graph and reports the diagnostics. -/
def link (g : Graph) : StateM Service (Graph × LinkReport) := g.linkAllTo emit

/-- Reads a model: the objects of all classes, by class and id, and linked if `linked` is set.
References that cannot be linked are reported and do not fail the reading. -/
def read (model : Int) (linked : Bool) : StateM Service (Except Error Graph) := do
  if !(← get).store.modelExists model then return .error (.modelNotFound model)
  match ← loadInto { model := some model } (← inventory model).entries with
  | .error e => return .error e
  | .ok g =>
    if linked then
      let (g, report) ← link g
      return .ok { g with report }
    else return .ok g

/-! ## Deleting -/

/-- Deletes a model and its objects. Says whether there was such a model; if not, nothing is
touched. -/
def delete (model : Int) : StateM Service (Except Error Bool) := do
  if !(← get).store.modelExists model then return .ok false
  match ← deleteAll (← inventory model).entries with
  | .error e => return .error e
  | .ok () =>
    note (.deleteModel model)
    onStore fun s => let (existed, s) := s.deleteModel model; (.ok existed, s)

end Service

end CimStore

import CimStore.Service

/-!
# All or nothing

`Service.transact` runs an operation in a transaction of its own: what it does to the store is kept
if it succeeds and taken back if it fails. Models are imported and deleted this way.
-/

namespace CimStore

/-- A new model and the objects that came with it. -/
structure Imported where
  model : Model
  objects : List Object
deriving DecidableEq

namespace Service

/-- Runs an operation in a transaction. -/
def transact {α : Type} (f : StateM Service (Except Error α)) :
    StateM Service (Except Error α) := do
  match ← tryStore Store.begin with
  | .error e => return .error e
  | .ok () =>
    match ← f with
    | .ok a => return (← tryStore Store.commit).map fun () => a
    | .error e =>
      match ← tryStore Store.rollBack with
      | .ok () => return .error e
      | .error e => return .error e

/-- Saves a payload as a new model. -/
def importModel (name payload : String) : StateM Service (Except Error Imported) :=
  transact do
    let (model, result) ← savePayload Catalog.standard (Model.named name) payload
    return result.map fun objects => ⟨model, objects⟩

/-- Deletes a model. Says whether there was such a model. -/
def deleteModel (model : Int) : StateM Service (Except Error Bool) :=
  transact (delete model)

end Service

end CimStore

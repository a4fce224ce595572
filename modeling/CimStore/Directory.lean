import CimStore.Batch
import CimStore.Error
import CimStore.Model

/-!
# Saving through a directory

Saving needs two things of a store: that it stores models, and that it saves objects of one class at
a time. A `Directory` is what does both. Objects of several classes are saved batch by batch, up to
the first batch that fails; what has been saved before stays saved.
-/

namespace CimStore

/-- What saving needs of a store with states of type `σ`. -/
structure Directory (σ : Type) where
  /-- Stores the row of a model and says under which id. -/
  saveModel : Model → StateM σ (Except Error Int)
  /-- Saves objects of one class, each into its model. All are handed back, those that were saved
  with their ids. -/
  saveBatch : String → List Object → StateM σ (List Object × Except Error Unit)

namespace Directory

variable {σ : Type} (d : Directory σ)

/-- Stores the row of a model and gives the model, and its collection, the id. -/
def persist (m : Model) : StateM σ (Model × Except Error Int) := do
  match ← d.saveModel m with
  | .ok id => return (m.setId id, .ok id)
  | .error e => return (m, .error e)

/-- Saves batches into a model, in order, up to the first that fails. All objects are handed back,
those that were saved with their ids. -/
def saveBatches (model : Int) : List Batch → StateM σ (List Object × Except Error Unit)
  | [] => return ([], .ok ())
  | b :: bs => do
    let (os, result) ← d.saveBatch b.cimType (b.objects.map (·.giveTo model))
    match result with
    | .error e => return (os ++ bs.flatMap (·.objects), .error e)
    | .ok () =>
      let (rest, result) ← saveBatches model bs
      return (os ++ rest, result)

/-- Saves a model and then objects into it, one batch per class. The objects come back in the order
of the batches. -/
def saveObjects (m : Model) (os : List Object) :
    StateM σ (Model × Except Error (List Object)) := do
  match ← d.persist m with
  | (m, .error e) => return (m, .error e)
  | (m, .ok id) =>
    let (os, result) ← d.saveBatches id (groupByType os)
    return (m, result.map fun () => os)

end Directory

end CimStore

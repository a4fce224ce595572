import CimStore.Store.Database

/-!
# Stores

A `Store` is a database together with the classes that it knows and, while a transaction is open,
the database to go back to.

Objects are saved, loaded and deleted in batches of one class. A batch is not all or nothing: the
objects in front of one that cannot be saved stay saved and keep their ids.
-/

namespace CimStore

structure Store where
  classes : Catalog := Catalog.standard
  db : Database := {}
  /-- The content at the beginning of the open transaction, if there is one. -/
  begun : Option Database := none
deriving DecidableEq

namespace Store

/-! ## Transactions -/

def begin (s : Store) : Except Error Store :=
  match s.begun with
  | some _ => .error (.storage .transactionOpen)
  | none => .ok { s with begun := some s.db }

def commit (s : Store) : Except Error Store :=
  match s.begun with
  | some _ => .ok { s with begun := none }
  | none => .error (.storage .nothingToCommit)

/-- Goes back to where the transaction began, ids that were given included. -/
def rollBack (s : Store) : Except Error Store :=
  match s.begun with
  | some db => .ok { s with db := db, begun := none }
  | none => .error (.storage .nothingToRollBack)

/-- The store as it is found when it is opened again, with the given classes. An open transaction
is lost. -/
def reopen (s : Store) (classes : Catalog) : Store :=
  { classes := classes, db := s.begun.getD s.db }

/-! ## Models -/

/-- Stores the name of a model and gives its id. If there is no id left for a new model, an open
transaction is rolled back. -/
def saveModel (m : Model) : StateM Store (Except Error Int) := fun s =>
  match s.db.putModel m.id m.name with
  | .ok (id, db) => (.ok id, { s with db })
  | .error fault => (.error (.storage fault), { s with db := s.begun.getD s.db, begun := none })

def modelExists (s : Store) (id : Int) : Bool := s.db.models.contains id

/-- Removes a model and its objects; says whether there was one. -/
def deleteModel (s : Store) (id : Int) : Bool × Store :=
  (s.modelExists id, { s with db := s.db.dropModel id })

/-- The ids and classes of a model's objects, by id. -/
def findObjects (s : Store) (model : Int) : List (Int × String) := s.db.objectsOf model

/-! ## Batches -/

/-- What saving a batch leaves behind: the objects, those that were saved with their ids, and the
error that ended it. -/
structure Saved where
  objects : List Object
  db : Database
  result : Except Error Unit

/-- Saves objects as objects of a class, up to the first that cannot be saved. -/
def saveAll (c : CimClass) (db : Database) : List Object → Saved
  | [] => ⟨[], db, .ok ()⟩
  | o :: os =>
    match db.save c o with
    | (.error e, db) => ⟨o :: os, db, .error e⟩
    | (.ok id, db) =>
      let rest := saveAll c db os
      { rest with objects := { o with id := some id } :: rest.objects }

/-- Saves a batch of a class. -/
def saveBatch (cimType : String) (os : List Object) :
    StateM Store (List Object × Except Error Unit) := fun s =>
  match s.classes.find cimType with
  | .error e => ((os, .error e), s)
  | .ok c =>
    let saved := saveAll c s.db os
    ((saved.objects, saved.result), { s with db := saved.db })

/-- The number of ids that one statement takes. -/
def batchSize : Nat := 500

/-- The ids in groups of `batchSize`, the last one shorter. -/
def batches (ids : List Int) : List (List Int) :=
  match ids with
  | [] => []
  | id :: ids => (id :: ids.take (batchSize - 1)) :: batches (ids.drop (batchSize - 1))
termination_by ids.length
decreasing_by simp only [List.length_drop, List.length_cons]; omega

/-- The distinct ids of a group, ascending. -/
def distinct (ids : List Int) : List Int := (SortedMap.ofList (ids.map (·, ()))).keys

/-- Loads the objects of a class under the ids, unlinked. Ids are taken in groups; in a group
objects come in the order of their ids, each once, and ids without an object are passed over. -/
def loadBatch (s : Store) (cimType : String) (ids : List Int) : Except Error (List Object) := do
  let c ← s.classes.find cimType
  (((batches ids).flatMap distinct).filterMap (s.db.load? c)).mapM id

/-- Deletes the objects of a class under the ids, one group of ids after the other. -/
def deleteBatch (s : Store) (cimType : String) (ids : List Int) : Except Error Store := do
  let c ← s.classes.find cimType
  return { s with db := (batches ids).foldl (fun db group => db.drop c.name group) s.db }

end Store

end CimStore

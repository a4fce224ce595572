import CimStore.Store

/-!
# Listings of a store

What a store holds, in numbers: its models with their objects, and its objects by class.
-/

namespace CimStore

/-- A stored model in a listing. -/
structure ModelSummary where
  id : Int
  name : Option String
  objects : Nat
deriving DecidableEq, Repr

structure StoreStats where
  models : Nat
  objects : Nat
  /-- Known classes. -/
  classes : Nat
  /-- Stored objects by class. -/
  byType : SortedMap String Nat
deriving DecidableEq

namespace StoreStats

/-- The numbers in lines of text. -/
def display (s : StoreStats) : String :=
  "Database Statistics:\n" ++
  "  Models: " ++ toString s.models ++ "\n" ++
  "  Objects: " ++ toString s.objects ++ "\n" ++
  "  Classes: " ++ toString s.classes ++ "\n" ++
  String.join (s.byType.entries.map fun e => "    " ++ e.1 ++ ": " ++ toString e.2 ++ "\n")

end StoreStats

namespace Store

def countModels (s : Store) : Nat := s.db.models.size

def countObjects (s : Store) : Nat := s.db.objects.size

/-- The stored models by id. -/
def listModels (s : Store) : List ModelSummary :=
  s.db.models.entries.map fun e => ⟨e.1, e.2, (s.db.objectsOf e.1).length⟩

/-- The name of a stored model, which may have none; nothing if there is no such model. -/
def modelName? (s : Store) (id : Int) : Option (Option String) := s.db.models.get? id

/-- The number of stored objects of each class. -/
def countByType (s : Store) : SortedMap String Nat :=
  s.db.objects.values.foldl (fun counts o => counts.alter o.cimType fun n => n.getD 0 + 1)
    SortedMap.empty

def stats (s : Store) : StoreStats :=
  ⟨s.countModels, s.countObjects, s.classes.size, s.countByType⟩

end Store

end CimStore

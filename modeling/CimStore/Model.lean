import CimStore.Object
import CimStore.Text.Quoted

/-!
# Models

A `Model` owns the objects of a network. An object that is added gets the id of the model, once
the model has one. A stored object that is removed is an orphan: it is noted by class and storage
id, to be deleted from the store when the model is saved next.
-/

namespace CimStore

/-- A stored object that its model has given up. -/
structure Orphan where
  cimType : String
  id : Int
deriving DecidableEq, Repr

structure Model where
  id : Option Int := none
  name : Option String := none
  /-- The collection, in the order in which the objects were added. -/
  objects : List Object := []
  /-- The removed objects that are stored, in the order of their removal. -/
  orphans : List Orphan := []
deriving DecidableEq

/-- Gives the object to a model. -/
def Object.giveTo (o : Object) (model : Int) : Object := { o with model := some model }

namespace Model

/-- A new model. -/
def named (name : String) : Model := { name := some name }

/-- A handle for a stored model. -/
def withId (id : Int) : Model := { id := some id }

/-- Gives the model an id, and with it every object of the collection. -/
def setId (m : Model) (id : Int) : Model :=
  { m with id := some id, objects := m.objects.map (·.giveTo id) }

/-- Adds an object at the end of the collection. -/
def add (m : Model) (o : Object) : Model :=
  let o := match m.id with
    | some id => o.giveTo id
    | none => o
  { m with objects := m.objects ++ [o] }

/-- The first object of the collection with the rdf:ID. -/
def get? (m : Model) (rdfid : String) : Option Object :=
  m.objects.find? (·.rdfid = rdfid)

/-- The list without its first object with the rdf:ID. -/
def withoutFirst (rdfid : String) : List Object → List Object
  | [] => []
  | o :: os => if o.rdfid = rdfid then os else o :: withoutFirst rdfid os

/-- Hands back the first object with the rdf:ID. If it is stored it becomes an orphan. -/
def remove (m : Model) (rdfid : String) : Option (Object × Model) :=
  (m.get? rdfid).map fun o =>
    let orphans := match o.id with
      | some id => m.orphans ++ [⟨o.cimType, id⟩]
      | none => m.orphans
    (o, { m with objects := withoutFirst rdfid m.objects, orphans := orphans })

/-- How an optional value is shown. -/
def showOption (shown : Option String) : String :=
  match shown with
  | some s => "Some(" ++ s ++ ")"
  | none => "None"

/-- A line about the model: id, name, and the numbers of objects and orphans. -/
def summary (m : Model) : String :=
  "CimModel \x7b cim_model_id: " ++ showOption (m.id.map formatInteger) ++
    ", name: " ++ showOption (m.name.map Text.quoted) ++
    ", objects: " ++ toString m.objects.length ++
    ", orphans: " ++ toString m.orphans.length ++ " \x7d"

end Model

end CimStore

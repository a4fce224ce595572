import CimStore.CimClass
import CimStore.Record.Attribute

/-!
# Classes of records

A `RecordClass` is a record type with its identity block and its attribute table. Attributes are
accessed by name through the table: `RecordClass.getAttribute` and `RecordClass.linkedObjects` look
at a record, `RecordClass.setAttribute` and `RecordClass.setAttributeRef` change it in place.

`RecordClass.cls` forgets the records and keeps what is declared.
-/

namespace CimStore

/-- What identifies an object and ties it to its model. -/
structure ObjectBase where
  /-- The storage id, from the first save on. -/
  id : Option Int := none
  rdfid : String := ""
  /-- The model that owns the object. -/
  model : Option Int := none
deriving DecidableEq

/-- The attributes of a class, inherited ones first, grouped by the class that declares them. -/
structure AttributeTable (σ : Type) where
  className : String
  groups : List (List (Attribute σ))

namespace AttributeTable

variable {σ : Type}

def attributes (t : AttributeTable σ) : List (Attribute σ) := t.groups.flatten

def find? (t : AttributeTable σ) (name : String) : Option (Attribute σ) :=
  t.attributes.find? (·.about.isNamed name)

def get (t : AttributeTable σ) (name : String) : Except Error (Attribute σ) :=
  match t.find? name with
  | some a => .ok a
  | none => .error (.unknownAttribute t.className name)

end AttributeTable

/-- A class whose objects are records. -/
structure RecordClass where
  name : String
  Record : Type
  /-- A record without any value. -/
  empty : Record
  base : Borrow Record ObjectBase
  table : AttributeTable Record

namespace RecordClass

variable (c : RecordClass)

/-- What is declared. -/
def cls : CimClass where
  name := c.name
  groups := c.table.groups.map (·.map Attribute.about)

/-- A new object with the rdf:ID. -/
def withRdfid (rdfid : String) : c.Record :=
  c.base.modify (fun base => { base with rdfid }) c.empty

def getAttribute (name : String) (r : c.Record) : Except Error (Option Value) := do
  return (← c.table.get name).read r

def linkedObjects (name : String) (r : c.Record) : Except Error (List Link) := do
  return (← c.table.get name).links r

/-- Sets an attribute from a text. -/
def setAttribute (name text : String) : ExceptT Error (StateM c.Record) Unit := do
  (← ExceptT.mk (pure (c.table.get name))).writeText text

/-- Links an attribute to an object. -/
def setAttributeRef (name : String) (l : Link) : ExceptT Error (StateM c.Record) Unit := do
  (← ExceptT.mk (pure (c.table.get name))).writeRef l

end RecordClass

end CimStore

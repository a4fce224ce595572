import CimStore.Attribute.Descriptor

/-!
# CIM classes

A `CimClass` is a name and the attributes of its objects, inherited ones first and grouped by the
class that declares them. An attribute is looked up by label or full name; the first that goes by
the name counts.
-/

namespace CimStore

structure CimClass where
  name : String
  /-- The attributes, grouped. -/
  groups : List (List Descriptor)
deriving DecidableEq, Repr

namespace CimClass

/-- The attributes in the order of their declaration. -/
def attributes (c : CimClass) : List Descriptor := c.groups.flatten

def labels (c : CimClass) : List String := c.attributes.map Descriptor.label

def find? (c : CimClass) (name : String) : Option Descriptor :=
  c.attributes.find? (·.isNamed name)

def get (c : CimClass) (name : String) : Except Error Descriptor :=
  match c.find? name with
  | some d => .ok d
  | none => .error (.unknownAttribute c.name name)

/-- The used attributes that have one value, each stored in a column. -/
def columns (c : CimClass) : List Descriptor :=
  c.attributes.filter fun d => d.isUsed && d.kind != .referenceSet

/-- The used attributes that have a set of values, each stored in a table of its own. -/
def referenceSets (c : CimClass) : List Descriptor :=
  c.attributes.filter fun d => d.isUsed && d.kind == .referenceSet

end CimClass

end CimStore

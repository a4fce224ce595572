import CimStore.Catalog.Standard
import CimStore.Object

/-!
# The catalog of known classes

A `Catalog` maps the name of a class to the class. New objects are made through it, and a store
and a reader of payloads each know the classes of their catalog and no others.
-/

namespace CimStore

/-- The known classes by name. -/
abbrev Catalog := SortedMap String CimClass

namespace Catalog

/-- Makes a class known. A class known by the same name before is forgotten. -/
def register (k : Catalog) (c : CimClass) : Catalog := k.insert c.name c

def ofClasses (cs : List CimClass) : Catalog := cs.foldl register SortedMap.empty

/-- The catalog of the standard classes. -/
def standard : Catalog := ofClasses CimClass.standard

/-- The class of the name. -/
def find (k : Catalog) (name : String) : Except Error CimClass :=
  match k.get? name with
  | some c => .ok c
  | none => .error (.unknownClass name)

/-- A new object of the class of the name. -/
def newObject (k : Catalog) (name : String) : Except Error Object :=
  return Object.new (← k.find name)

end Catalog

end CimStore

import CimStore.Catalog
import CimStore.Graph
import CimStore.Payload.Entry

/-!
# Objects of a payload

`Entry.build` makes an object of an entry, `readObjects` makes the objects of a payload, keyed by
their rdf:IDs, and `writeObjects` writes a payload. Entries are built in order: class, rdf:ID, the
attributes in the order of their names; then the rdf:ID is checked to be there and to be new.
-/

namespace CimStore

/-- Sets an attribute from the value of an entry. Only a reference set takes a list. -/
def Object.setValue (o : Object) (name : String) : Value → Except Error Object
  | .text t => o.set name t
  | .texts ts => do
    let f ← o.field name
    if f.about.kind = .referenceSet then o.setAll name ts
    else .error (.invalidValueShape f.about.fullName)

namespace Entry

/-- The unlinked object that the entry describes. -/
def build (known : Catalog) (e : Entry) : Except Error Object := do
  let o ← known.newObject e.cimType
  e.attributes.entries.foldlM (fun o a => o.setValue a.1 a.2)
    { o with rdfid := normalizeId e.rdfid }

/-- The entry of an object: every attribute that has a value, by its label. -/
def ofObject (o : Object) : Entry where
  rdfid := o.rdfid
  cimType := o.cimType
  attributes := SortedMap.ofList
    (o.fields.filterMap fun f => f.slot.read.map (f.about.label, ·))

/-- Adds the objects of entries to objects read before. -/
def buildAll (known : Catalog) : List Entry → SortedMap String Object →
    Except Error (SortedMap String Object)
  | [], objects => .ok objects
  | e :: es, objects => do
    let o ← e.build known
    if o.rdfid = "" then .error (.interchange (.withoutId o.cimType))
    else if objects.contains o.rdfid then .error (.interchange (.duplicateId o.rdfid))
    else buildAll known es (objects.insert o.rdfid o)

end Entry

/-- The objects of a payload by their rdf:IDs. -/
def readObjects (known : Catalog) (payload : String) :
    Except Error (SortedMap String Object) :=
  match Entry.readAll payload with
  | .ok es => Entry.buildAll known es SortedMap.empty
  | .error fault => .error (.json fault)

/-- A payload of the objects, in order. -/
def writeObjects (os : List Object) : String := Entry.renderAll (os.map Entry.ofObject)

/-- A payload of the objects of a graph, in load order. -/
def Graph.write (g : Graph) : String := writeObjects g.objects

end CimStore

import CimStore.Catalog
import CimStore.Link.Report

/-!
# Graphs of loaded objects

A `Graph` holds the objects of a model in the order in which they were loaded. Its index says for
an rdf:ID where the object is that was inserted with it, of several the last; the index is made on
insertion and does not follow later changes of an object's rdf:ID.
-/

namespace CimStore

structure Graph where
  model : Option Int := none
  objects : List Object := []
  /-- For each rdf:ID that an object was inserted with, the position of the last such object. -/
  index : SortedMap String Nat := SortedMap.empty
  /-- What the last linking found; empty if the graph was not linked. -/
  report : LinkReport := {}
deriving DecidableEq

namespace Graph

/-- Adds an object. Its position is the number of objects before it. -/
def insert (g : Graph) (o : Object) : Graph :=
  { g with
    objects := g.objects ++ [o]
    index := g.index.insert o.rdfid g.objects.length }

/-- Adds objects in order. -/
def insertAll (g : Graph) (os : List Object) : Graph := os.foldl insert g

/-- The object at a position. -/
def object? (g : Graph) (position : Nat) : Option Object := g.objects[position]?

/-- The object that the index gives for an rdf:ID. -/
def get? (g : Graph) (rdfid : String) : Option Object :=
  (g.index.get? rdfid).bind g.object?

/-- The graph with another object at a position. -/
def set (g : Graph) (position : Nat) (o : Object) : Graph :=
  { g with objects := g.objects.set position o }

/-- The object that a link leads to. -/
def resolve? (g : Graph) (l : Link) : Option Object := g.object? l.position

/-- The rdf:IDs of the index, each with the link to its object. -/
def links (g : Graph) : SortedMap String Link :=
  g.index.filterMap fun rdfid position =>
    (g.object? position).map fun o => ⟨position, rdfid, o.cimType⟩

/-- The link to the object that the index gives for an rdf:ID. -/
def link? (g : Graph) (rdfid : String) : Option Link := do
  let position ← g.index.get? rdfid
  let o ← g.object? position
  return ⟨position, rdfid, o.cimType⟩

/-- The number of objects of each class. -/
def countByType (g : Graph) : SortedMap String Nat :=
  g.objects.foldl (fun counts o => counts.alter o.cimType fun n => n.getD 0 + 1) SortedMap.empty

/-- The objects by the rdf:ID that they have now; of several with one rdf:ID the last. -/
def byId (g : Graph) : SortedMap String Object :=
  SortedMap.ofList (g.objects.map fun o => (o.rdfid, o))

end Graph

end CimStore

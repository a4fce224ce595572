import CimStore.SortedMap
import CimStore.Text.Blank

/-!
# References between objects

A reference names its target by rdf:ID. Once the objects of a model are loaded it can be linked:
then it also says where in the graph the target is.

* `Reference` holds at most one target. A linked reference has the id of its link by construction.
* `ReferenceSet` holds any number of targets, each linked or not, in the order of their ids.
-/

namespace CimStore

/-- Where the target of a reference is: its position in a graph, its rdf:ID and its class. -/
structure Link where
  position : Nat
  rdfid : String
  cimType : String
deriving DecidableEq, Repr

/-- An rdf:ID as it is kept: without blanks around it and without one leading `#`, the mark that
files put in front of the id of an object of their own. -/
def normalizeId (text : String) : String :=
  match Text.trimChars text.toList with
  | '#' :: cs => String.ofList cs
  | cs => String.ofList cs

/-- A reference to at most one object. -/
inductive Reference
  | empty
  /-- The target is known by its id only. -/
  | unlinked (target : String)
  | linked (link : Link)
deriving DecidableEq, Repr

namespace Reference

/-- The rdf:ID of the target, linked or not. -/
def target? : Reference → Option String
  | empty => none
  | unlinked target => some target
  | linked link => some link.rdfid

def link? : Reference → Option Link
  | linked link => some link
  | _ => none

def isLinked (r : Reference) : Bool := r.link?.isSome

def isEmpty (r : Reference) : Bool := r.target?.isNone

/-- Points the reference at the object with the rdf:ID that `text` gives. A link to that very
object is kept, every other one is dropped; an empty id empties the reference. -/
def setId (r : Reference) (text : String) : Reference :=
  let id := normalizeId text
  if id = "" then empty
  else if r.isLinked && r.target? = some id then r
  else unlinked id

/-- A reference by id. -/
def ofId (text : String) : Reference := empty.setId text

end Reference

/-- A reference to any number of objects: the ids of the targets, each with its link if it has
one. -/
structure ReferenceSet where
  members : SortedMap String (Option Link)
deriving DecidableEq

namespace ReferenceSet

def empty : ReferenceSet := ⟨SortedMap.empty⟩

/-- The ids of the targets, ascending. -/
def ids (s : ReferenceSet) : List String := s.members.keys

/-- The links, in the order of the ids. -/
def links (s : ReferenceSet) : List Link := s.members.values.filterMap id

def isEmpty (s : ReferenceSet) : Bool := s.members.isEmpty

/-- Adds the object with the rdf:ID that `text` gives; an empty id adds nothing. -/
def addId (s : ReferenceSet) (text : String) : ReferenceSet :=
  let id := normalizeId text
  if id = "" || s.members.contains id then s else ⟨s.members.insert id none⟩

/-- Adds a linked object, or links it if it is in the set. -/
def link (s : ReferenceSet) (link : Link) : ReferenceSet :=
  ⟨s.members.insert link.rdfid (some link)⟩

end ReferenceSet

end CimStore

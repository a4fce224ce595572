import CimStore.Attribute.Value
import CimStore.Json.Print
import CimStore.Json.Scan
import CimStore.SortedMap

/-!
# Payloads

A payload is a JSON list of entries. An `Entry` gives an object's rdf:ID, its class, and texts for
some of its attributes: one text, or a list of texts for a set.

* `Entry.renderAll` writes a payload, `Entry.readAll` reads one.
* An entry is read from an object, whose members may come in any order and of which unknown ones
  are passed over, or from a list of rdf:ID, class and attributes.
* The whole payload is read and its types are checked before any object is made of it.
-/

namespace CimStore

/-- What a payload says about one object. -/
structure Entry where
  rdfid : String
  cimType : String
  /-- The values by the name of the attribute. -/
  attributes : SortedMap String Value
deriving DecidableEq

namespace Entry

/-! ## Writing -/

def renderValue (indent : Nat) : Value → List Char
  | .text t => Json.quote t
  | .texts ts => Json.listBlock indent (ts.map Json.quote)

def renderAttributes (indent : Nat) (values : SortedMap String Value) : List Char :=
  Json.objectBlock indent
    (values.entries.map fun e => Json.member e.1 (renderValue (indent + 2) e.2))

def render (indent : Nat) (e : Entry) : List Char :=
  Json.objectBlock indent
    [Json.member "rdfid" (Json.quote e.rdfid), Json.member "type" (Json.quote e.cimType),
      Json.member "attributes" (renderAttributes (indent + 2) e.attributes)]

/-- A payload of the entries, in order. -/
def renderAll (es : List Entry) : String :=
  String.ofList (Json.listBlock 0 (es.map (render 2)))

/-! ## Reading -/

/-- What a JSON value is worth as the value of an attribute. -/
inductive Shape
  | text (t : String)
  | texts (ts : List String)
  | other

namespace Shape

/-- The texts of a list, if it holds nothing else. -/
def texts? : List Shape → Option (List String)
  | [] => some []
  | .text t :: shapes => (texts? shapes).map (t :: ·)
  | _ :: _ => none

/-- The shape of a list of values. -/
def ofItems (shapes : List Shape) : Shape :=
  match texts? shapes with
  | some ts => .texts ts
  | none => .other

/-- The texts of a set count once each, ascending. -/
def value? : Shape → Option Value
  | .text t => some (.text t)
  | .texts ts => some (.texts (SortedMap.ofList (ts.map (·, ()))).keys)
  | .other => none

end Shape

/-- The shape of a value in which brackets nest up to `depth`. -/
def shape (depth : Nat) : Json.Scan Shape := fun cs =>
  match Json.skipSpace cs with
  | '"' :: cs => do
    let (t, cs) ← Json.stringTail cs
    .ok (.text t, cs)
  | cs =>
    match Json.scalar? Json.number (fun cs => (·.2) <$> Json.stringTail cs) cs with
    | some rest => do .ok (.other, ← rest)
    | none =>
      match cs, depth with
      | [], _ => .error .truncated
      | '[' :: cs, depth + 1 => do
        let (shapes, cs) ← Json.list (shape depth) cs
        .ok (.ofItems shapes, cs)
      | '\x7b' :: cs, depth + 1 => do
        let (_, cs) ← Json.object (fun _ _ cs => do
          let (_, cs) ← shape depth (← Json.colon cs)
          .ok ((), cs)) () cs
        .ok (.other, cs)
      | _, _ => .error .malformed

/-- How deep brackets may nest in the value of an attribute. With the list, the entry and the
object of the attributes around it these are 127 levels. -/
def maxDepth : Nat := 124

/-- The values of the attributes; of several with one name the last counts. -/
def readAttributes : Json.Scan (SortedMap String Value) := fun cs =>
  match Json.skipSpace cs with
  | [] => .error .truncated
  | '\x7b' :: cs =>
    Json.object (fun values name cs => do
      let (shape, cs) ← shape maxDepth (← Json.colon cs)
      match shape.value? with
      | some value => .ok (values.insert name value, cs)
      | none => .error .mistyped) SortedMap.empty cs
  | cs => .error (Json.wrongType cs)

/-- The members of an entry that have been read. -/
structure Parts where
  rdfid? : Option String := none
  cimType? : Option String := none
  attributes? : Option (SortedMap String Value) := none

/-- Reads one member of an entry. A known one may not come twice. -/
def Parts.member (p : Parts) (key : String) : Json.Scan Parts := fun cs =>
  if key = "rdfid" then
    if p.rdfid?.isSome then .error .mistyped
    else do
      let (t, cs) ← Json.text (← Json.colon cs)
      .ok ({ p with rdfid? := some t }, cs)
  else if key = "type" then
    if p.cimType?.isSome then .error .mistyped
    else do
      let (t, cs) ← Json.text (← Json.colon cs)
      .ok ({ p with cimType? := some t }, cs)
  else if key = "attributes" then
    if p.attributes?.isSome then .error .mistyped
    else do
      let (values, cs) ← readAttributes (← Json.colon cs)
      .ok ({ p with attributes? := some values }, cs)
  else do
    let cs ← Json.skip (← Json.colon cs)
    .ok (p, cs)

/-- The entry of the members: rdf:ID and class may not be missing. -/
def Parts.entry (p : Parts) : Except JsonFault Entry :=
  match p.rdfid?, p.cimType? with
  | some rdfid, some cimType => .ok ⟨rdfid, cimType, p.attributes?.getD SortedMap.empty⟩
  | _, _ => .error .mistyped

/-- An entry written as a list, after the opening bracket. -/
def readList : Json.Scan Entry := fun cs => do
  let some cs ← Json.nextItem true cs | .error .mistyped
  let (rdfid, cs) ← Json.text cs
  let some cs ← Json.nextItem false cs | .error .mistyped
  let (cimType, cs) ← Json.text cs
  match ← Json.nextItem false cs with
  | none => return (⟨rdfid, cimType, SortedMap.empty⟩, ← Json.close ']' cs)
  | some cs =>
    let (values, cs) ← readAttributes cs
    return (⟨rdfid, cimType, values⟩, ← Json.close ']' cs)

/-- One entry. -/
def read : Json.Scan Entry := fun cs =>
  match Json.skipSpace cs with
  | [] => .error .truncated
  | '[' :: cs => readList cs
  | '\x7b' :: cs => do
    let (parts, cs) ← Json.object Parts.member {} cs
    return (← parts.entry, cs)
  | cs => .error (Json.wrongType cs)

/-- The entries of a payload. -/
def readAll (payload : String) : Except JsonFault (List Entry) :=
  match Json.skipSpace payload.toList with
  | [] => .error .truncated
  | '[' :: cs => do
    let (es, cs) ← Json.list read cs
    if (Json.skipSpace cs).isEmpty then .ok es else .error .malformed
  | cs => .error (Json.wrongType cs)

end Entry

end CimStore

import CimStore.Model
import CimStore.Store.Schema

/-!
# The content of a store

A `Database` holds the stored models and the stored objects by their ids, and the largest id that
either has ever had, so that no id is given twice.

A stored object is its identity (rdf:ID, class, model) together with its rows in the tables of
classes. An object has one row as a rule; it has more if it was saved as an object of one class
under the id of an object of another.

That a row refers to an identity, and that an identity refers to a model, are foreign keys of the
schema, and they cascade. It is assumed of SQLite that it keeps them: here the rows are part of the
stored object, so no row stands without its object, and rows vanish with it. It is also assumed that
each class has the tables that it declares, which is so if `Schema.layOut` makes all of them.
-/

namespace CimStore

/-- A value in a column. -/
inductive Cell
  | null
  | integer (i : Int)
  | real (x : Binary binary64)
  | text (t : String)
deriving DecidableEq

/-- The value that a column keeps of a text; nothing if the text is no value of the sort. A real
column does not keep the sign of zero; a boolean is stored as 0 or 1. -/
def Cell.ofText? (sort : AttributeSort) (text : String) : Option Cell :=
  match sort with
  | .float => (Binary.parse? binary64 text).map fun x => .real x.unsignZero
  | .integer => (parseInteger? text).map .integer
  | .boolean => some (.integer (if parseBoolean text then 1 else 0))
  | .string | .phaseCode | .reference | .referenceSet => some (.text text)

/-- What the column of an attribute keeps of its value. -/
def Descriptor.cell (d : Descriptor) (value : Option Value) : Except Error Cell :=
  match value.bind Value.text? with
  | none => .ok .null
  | some text =>
    match Cell.ofText? d.sort text with
    | some cell => .ok cell
    | none => .error (.malformedValue d.fullName text)

/-- The text of a column's value, for an attribute of the type. -/
def Cell.text? (type : ValueType) : Cell → Option String
  | null => none
  | integer i => some (if type = .boolean then formatBoolean (i ≠ 0) else formatInteger i)
  | real x => some x.format
  | text t => some t

/-- The rows of an object in the tables of one class. -/
structure ClassRow where
  /-- The row of the class table, by column. -/
  cells : SortedMap String Cell
  /-- The members of each reference set, ascending, by the label of the attribute. -/
  members : SortedMap String (List String)
deriving DecidableEq

namespace ClassRow

/-- The column of an attribute with what it keeps of the value. -/
def column (f : Field) : Except Error (String × Cell) := do
  return (Schema.columnName f.about.label, ← f.about.cell f.slot.read)

/-- The members of a reference set with its label. -/
def set (f : Field) : String × List String :=
  (f.about.label, (f.slot.read.map Value.members).getD [])

/-- The rows of the used attributes of an object. -/
def ofObject (o : Object) : Except Error ClassRow := do
  let columns ← (o.fields.filter fun f => f.about.isUsed && f.about.kind != .referenceSet).mapM column
  let sets := (o.fields.filter fun f => f.about.isUsed && f.about.kind == .referenceSet).map set
  return { cells := SortedMap.ofList columns, members := SortedMap.ofList sets }

/-- The texts that an attribute is set from when the object is loaded, in order. -/
def texts (row : ClassRow) (d : Descriptor) : List String :=
  if !d.isUsed then []
  else if d.kind = .referenceSet then (row.members.get? d.label).getD []
  else ((row.cells.get? (Schema.columnName d.label)).bind (·.text? d.valueType)).toList

/-- The attribute as loaded. -/
def field (row : ClassRow) (d : Descriptor) : Except Error Field := do
  let slot ← (row.texts d).foldlM (fun slot t => d.write t slot) d.sort.emptySlot
  return (Field.empty d).withSlot slot

/-- The attributes as loaded, in order. -/
def fields (row : ClassRow) :
    (ds : List Descriptor) → Except Error { fs : List Field // fs.map Field.about = ds }
  | [] => .ok ⟨[], rfl⟩
  | d :: ds => do
    let f ← row.field d
    let ⟨fs, h⟩ ← row.fields ds
    if hf : f.about = d then return ⟨f :: fs, by simp [hf, h]⟩
    else return ⟨Field.empty d :: fs, by simp [Field.empty, h]⟩

end ClassRow

/-- A stored object. -/
structure StoredObject where
  rdfid : String
  cimType : String
  model : Int
  /-- The rows by the name of the class. -/
  rows : SortedMap String ClassRow
deriving DecidableEq

structure Database where
  /-- The names of the models by their ids. -/
  models : SortedMap Int (Option String) := SortedMap.empty
  /-- The largest id that a model has had, 0 at first. -/
  lastModel : Int := 0
  /-- The objects by their ids. -/
  objects : SortedMap Int StoredObject := SortedMap.empty
  /-- The largest id that an object has had, 0 at first. -/
  lastObject : Int := 0
deriving DecidableEq

namespace Database

/-- The id for a new row after the largest id that has been given. -/
def nextId (last : Int) : Except StoreFault Int :=
  if last = maxInteger then .error .idsExhausted else .ok (last + 1)

/-! ## Models -/

/-- Stores the name of a model, under its id or, if it has none, under a new one. -/
def putModel (db : Database) (id? : Option Int) (name : Option String) :
    Except StoreFault (Int × Database) := do
  let id ← match id? with
    | some id => .ok id
    | none => nextId db.lastModel
  return (id, { db with
    models := db.models.insert id name
    lastModel := max db.lastModel id })

/-- Removes a model and its objects. -/
def dropModel (db : Database) (id : Int) : Database :=
  { db with
    models := db.models.erase id
    objects := db.objects.filter fun _ o => o.model ≠ id }

/-! ## Objects -/

/-- Whether another object than that under `id` has the rdf:ID in the model. -/
def isTaken (db : Database) (id model : Int) (rdfid : String) : Bool :=
  db.objects.entries.any fun e => e.1 ≠ id && e.2.model = model && e.2.rdfid = rdfid

/-- Stores the identity of an object: a new one gets an id and its class, one with an id gets its
rdf:ID and model. -/
def putIdentity (db : Database) (id? : Option Int) (cimType rdfid : String) (model : Int) :
    Except StoreFault (Int × Database) := do
  let id ← match id? with
    | some id => .ok id
    | none => nextId db.lastObject
  if db.isTaken id model rdfid then .error .duplicateIdentity
  else if !db.models.contains model then .error .missingOwner
  else
    let stored := match db.objects.get? id with
      | some o => { o with rdfid := rdfid, model := model }
      | none => { rdfid := rdfid, cimType := cimType, model := model, rows := SortedMap.empty }
    return (id, { db with
      objects := db.objects.insert id stored
      lastObject := max db.lastObject id })

/-- Stores the rows of an object of a class. -/
def putRow (db : Database) (id : Int) (cimType : String) (row : ClassRow) : Database :=
  match db.objects.get? id with
  | some o =>
    { db with objects := db.objects.insert id { o with rows := o.rows.insert cimType row } }
  | none => db

/-- Stores an object as an object of the class: under its id, or under a new one. The identity is
stored before the values are converted for the rows. -/
def save (db : Database) (c : CimClass) (o : Object) : Except Error Int × Database :=
  match o.model with
  | none => (.error (.missingModel o.rdfid), db)
  | some model =>
    if o.cls ≠ c then (.error (.wrongClass c.name o.cimType), db)
    else
      match db.putIdentity o.id c.name o.rdfid model with
      | .error fault => (.error (.storage fault), db)
      | .ok (id, db) =>
        match ClassRow.ofObject o with
        | .error e => (.error e, db)
        | .ok row => (.ok id, db.putRow id c.name row)

/-- The object of the class under an id, with no links; nothing if the class has no row there. -/
def load? (db : Database) (c : CimClass) (id : Int) : Option (Except Error Object) := do
  let stored ← db.objects.get? id
  let row ← stored.rows.get? c.name
  return do
    let ⟨fields, h⟩ ← row.fields c.attributes
    .ok ⟨c, some id, stored.rdfid, some stored.model, fields, h⟩

/-- Removes the rows of the class under the ids, and the objects that are of the class. -/
def drop (db : Database) (cimType : String) (ids : List Int) : Database :=
  { db with
    objects := db.objects.filterMap fun id o =>
      if !ids.contains id then some o
      else if o.cimType = cimType then none
      else some { o with rows := o.rows.erase cimType } }

/-- The ids of the objects of a model, ascending, each with the class of the object. -/
def objectsOf (db : Database) (model : Int) : List (Int × String) :=
  (db.objects.entries.filter fun e => e.2.model = model).map fun e => (e.1, e.2.cimType)

end Database

end CimStore

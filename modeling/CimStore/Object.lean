import CimStore.CimClass

/-!
# Objects

An `Object` belongs to a class and has one `Field` per attribute of it, in the order of the class
(`Object.fields_about`). Its identity is its rdf:ID within a model; the storage id is given by the
first save and does not count for what "the same object" means (`Object.same`).

Attributes are reached by name. Setting or linking one leaves the class, the identity and every
other field as they are; if it fails there is no changed object at all.
-/

namespace CimStore

/-- An attribute of an object with what it holds. -/
structure Field where
  about : Descriptor
  slot : Slot
  sort_slot : slot.sort = about.sort
deriving DecidableEq

namespace Field

/-- The attribute without a value. -/
def empty (d : Descriptor) : Field := ⟨d, d.sort.emptySlot, by cases d.sort <;> rfl⟩

/-- The field with another slot, if that is of its sort. -/
def withSlot (f : Field) (slot : Slot) : Field :=
  if h : slot.sort = f.about.sort then ⟨f.about, slot, h⟩ else f

@[simp]
theorem about_withSlot (f : Field) (slot : Slot) : (f.withSlot slot).about = f.about := by
  rw [withSlot]; split <;> rfl

/-- The fields with another slot in the first that goes by `name`. -/
def replace (name : String) (slot : Slot) : List Field → List Field
  | [] => []
  | f :: fs => if f.about.isNamed name then f.withSlot slot :: fs else f :: replace name slot fs

@[simp]
theorem map_about_replace (name : String) (slot : Slot) (fs : List Field) :
    (replace name slot fs).map Field.about = fs.map Field.about := by
  induction fs with
  | nil => rfl
  | cons f fs ih => rw [replace]; split <;> simp [ih]

end Field

/-- An object of a CIM class. -/
structure Object where
  cls : CimClass
  /-- The storage id, from the first save on. -/
  id : Option Int
  rdfid : String
  /-- The model that owns the object. -/
  model : Option Int
  fields : List Field
  fields_about : fields.map Field.about = cls.attributes
deriving DecidableEq

namespace Object

/-- A new object without any value. -/
def new (cls : CimClass) : Object where
  cls := cls
  id := none
  rdfid := ""
  model := none
  fields := cls.attributes.map Field.empty
  fields_about := by simp [Function.comp_def, Field.empty]

def cimType (o : Object) : String := o.cls.name

/-- Whether two objects are the same object: the same rdf:ID in the same model. -/
def same (a b : Object) : Bool := a.model = b.model && a.rdfid = b.rdfid

/-- The first field that goes by the name. -/
def field? (o : Object) (name : String) : Option Field :=
  o.fields.find? (·.about.isNamed name)

def field (o : Object) (name : String) : Except Error Field :=
  match o.field? name with
  | some f => .ok f
  | none => .error (.unknownAttribute o.cimType name)

/-- The object with another slot in the first field that goes by the name. -/
def replace (o : Object) (name : String) (slot : Slot) : Object :=
  { o with
    fields := Field.replace name slot o.fields
    fields_about := (Field.map_about_replace ..).trans o.fields_about }

/-- The value of an attribute as text. -/
def get (o : Object) (name : String) : Except Error (Option Value) := do
  let f ← o.field name
  return f.slot.read

/-- Sets an attribute from a text: a primitive value, a literal, or the id of a target. -/
def set (o : Object) (name text : String) : Except Error Object := do
  let f ← o.field name
  return o.replace name (← f.about.write text f.slot)

/-- Sets an attribute from several texts, one after the other. -/
def setAll (o : Object) (name : String) (texts : List String) : Except Error Object :=
  texts.foldlM (·.set name ·) o

/-- Links an attribute to an object. -/
def link (o : Object) (name : String) (link : Link) : Except Error Object := do
  let f ← o.field name
  return o.replace name (← f.about.link link f.slot)

/-- The objects that an attribute is linked to. -/
def links (o : Object) (name : String) : Except Error (List Link) := do
  let f ← o.field name
  return f.slot.links

/-- Class and rdf:ID, and the storage id if there is one. -/
def describe (o : Object) : String :=
  let name := o.cimType ++ " " ++ o.rdfid
  match o.id with
  | some id => name ++ " (id " ++ formatInteger id ++ ")"
  | none => name

end Object

end CimStore

import CimStore.Attribute.Descriptor

/-!
# Attributes of records

A class keeps its attributes in the fields of a record. A table ties their names to the fields: an
`Attribute` has a declaration and an `Accessor`, a pair of functions of which one looks into the
record and the other changes it. Nothing but the table says which field that is, and that both look
at the same one.

* A `Borrow` is a part of a record that can be changed;
* `Attribute.read` and `Attribute.links` show what an attribute holds, `Attribute.writeText` and
  `Attribute.writeRef` change it. Changes are programs on the whole record.
-/

namespace CimStore

/-! ## Parts of records -/

/-- A part of a record that is borrowed: how it is read and how it is overwritten. -/
structure Borrow (σ α : Type) where
  get : σ → α
  put : α → σ → σ

namespace Borrow

variable {σ α β : Type}

/-- A part of a part. -/
def part (p : Borrow σ α) (q : Borrow α β) : Borrow σ β where
  get r := q.get (p.get r)
  put x r := p.put (q.put x (p.get r)) r

def modify (p : Borrow σ α) (f : α → α) (r : σ) : σ := p.put (f (p.get r)) r

/-- Runs a program on the part. What it leaves there is in the record, also if it fails. -/
def run (p : Borrow σ α) (program : OptionT (StateM α) Unit) : OptionT (StateM σ) Unit :=
  OptionT.mk fun r =>
    let (result, x) := program.run.run (p.get r)
    (result, p.put x r)

end Borrow

/-! ## Texts of values -/

/-- Sets a value from a text, if the text converts. -/
def overwrite {α : Type} (parse : String → Option α) (text : String) :
    OptionT (StateM (Option α)) Unit := do
  set (some (← (parse text).getM))

def stringText (value : Option String) : Option String := value

def setString : String → OptionT (StateM (Option String)) Unit := overwrite some

def floatText (value : Option (Binary binary64)) : Option String := value.map (·.format)

def setFloat : String → OptionT (StateM (Option (Binary binary64))) Unit :=
  overwrite (Binary.parse? binary64)

def integerText (value : Option Integer64) : Option String :=
  value.map fun i => formatInteger i.val

def setInteger : String → OptionT (StateM (Option Integer64)) Unit := overwrite parseInteger64?

def booleanText (value : Option Bool) : Option String := value.map formatBoolean

/-- Every text converts. -/
def setBoolean : String → OptionT (StateM (Option Bool)) Unit :=
  overwrite fun text => some (parseBoolean text)

def phaseCodeText (value : Option PhaseCode) : Option String := value.map (·.qualified)

def setPhaseCode : String → OptionT (StateM (Option PhaseCode)) Unit := overwrite PhaseCode.parse?

/-! ## Attributes -/

/-- How an attribute is read off a record, and how it is changed. -/
inductive Accessor (σ : Type)
  | text (get : σ → Option String) (set : String → OptionT (StateM σ) Unit)
  | reference (get : σ → Reference) (borrow : Borrow σ Reference)
  | referenceSet (get : σ → ReferenceSet) (borrow : Borrow σ ReferenceSet)

/-- An attribute of a class whose objects are records. -/
structure Attribute (σ : Type) where
  about : Descriptor
  accessor : Accessor σ

/-- The sort of a primitive attribute. -/
def ValueType.sort : ValueType → AttributeSort
  | string => .string
  | float => .float
  | integer => .integer
  | boolean => .boolean

namespace Attribute

variable {σ : Type}

def primitive (fullName : String) (valueType : ValueType) (get : σ → Option String)
    (set : String → OptionT (StateM σ) Unit) : Attribute σ :=
  ⟨{ fullName, sort := valueType.sort }, .text get set⟩

def phaseCode (fullName : String) (get : σ → Option String)
    (set : String → OptionT (StateM σ) Unit) : Attribute σ :=
  ⟨{ fullName, sort := .phaseCode }, .text get set⟩

def reference (fullName : String) (targets : List String) (get : σ → Reference)
    (borrow : Borrow σ Reference) : Attribute σ :=
  ⟨{ fullName, sort := .reference, targets }, .reference get borrow⟩

def referenceSet (fullName : String) (targets : List String) (get : σ → ReferenceSet)
    (borrow : Borrow σ ReferenceSet) : Attribute σ :=
  ⟨{ fullName, sort := .referenceSet, targets }, .referenceSet get borrow⟩

/-- The attribute, declared but neither stored nor linked. -/
def unused (a : Attribute σ) : Attribute σ := { a with about := { a.about with isUsed := false } }

def inNamespace (a : Attribute σ) (namespaceUrl : String) : Attribute σ :=
  { a with about := { a.about with namespaceUrl } }

/-- The value as text. -/
def read (a : Attribute σ) (r : σ) : Option Value :=
  match a.accessor with
  | .text get _ => (get r).map .text
  | .reference get _ => (get r).target?.map .text
  | .referenceSet get _ => if (get r).isEmpty then none else some (.texts (get r).ids)

/-- Sets the value from a text. A set gets one more member. -/
def writeText (a : Attribute σ) (text : String) : ExceptT Error (StateM σ) Unit :=
  match a.accessor with
  | .text _ set => do
    match ← (set text).run with
    | some () => return
    | none => throw (.malformedValue a.about.fullName text)
  | .reference _ borrow => modify (borrow.modify (·.setId text))
  | .referenceSet _ borrow => modify (borrow.modify (·.addId text))

/-- Links the attribute to an object. A set gets one more link. -/
def writeRef (a : Attribute σ) (l : Link) : ExceptT Error (StateM σ) Unit := do
  unless a.about.admits l.cimType do
    throw (.typeMismatch a.about.fullName a.about.targets l.cimType)
  match a.accessor with
  | .text _ _ => throw (.notAReference a.about.fullName)
  | .reference _ borrow => modify (borrow.modify fun _ => .linked l)
  | .referenceSet _ borrow => modify (borrow.modify (·.link l))

/-- The objects that the attribute is linked to. -/
def links (a : Attribute σ) (r : σ) : List Link :=
  match a.accessor with
  | .text _ _ => []
  | .reference get _ => (get r).link?.toList
  | .referenceSet get _ => (get r).links

end Attribute

end CimStore

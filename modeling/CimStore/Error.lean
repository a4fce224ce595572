import CimStore.Text.Quoted

/-!
# What can go wrong

One type for the failures of every operation on objects, payloads and stores. A failure says what
is at fault; `Error.message` words it.
-/

namespace CimStore

/-- A rule of the store that a statement would break. -/
inductive StoreFault
  /-- The model has another object with the rdf:ID. -/
  | duplicateIdentity
  /-- The object's model is not stored. -/
  | missingOwner
  /-- The largest id there is has been used. -/
  | idsExhausted
  | transactionOpen
  | nothingToCommit
  | nothingToRollBack
deriving DecidableEq, Repr

namespace StoreFault

def message : StoreFault → String
  | duplicateIdentity => "UNIQUE constraint failed: base_class.cim_model_id, base_class.rdfid"
  | missingOwner => "FOREIGN KEY constraint failed"
  | idsExhausted => "database or disk is full"
  | transactionOpen => "cannot start a transaction within a transaction"
  | nothingToCommit => "cannot commit - no transaction is active"
  | nothingToRollBack => "cannot rollback - no transaction is active"

end StoreFault

/-- Why a payload is not a list of entries. -/
inductive JsonFault
  /-- It breaks the grammar of JSON. -/
  | malformed
  /-- It is JSON with a value of another type than the entry needs, or with a field missing. -/
  | mistyped
  /-- It ends too early. -/
  | truncated
deriving DecidableEq, Repr

/-- Why an entry cannot join the entries before it. -/
inductive EntryFault
  | withoutId (cimType : String)
  | duplicateId (rdfid : String)
deriving DecidableEq, Repr

namespace EntryFault

def message : EntryFault → String
  | withoutId cimType => cimType ++ " object without rdf:ID"
  | duplicateId rdfid => "Duplicate rdf:ID " ++ rdfid

end EntryFault

/-- The failure of an operation. -/
inductive Error
  | storage (fault : StoreFault)
  | json (fault : JsonFault)
  | interchange (fault : EntryFault)
  | unknownClass (cimType : String)
  | unknownAttribute (cimType name : String)
  | wrongClass (expected found : String)
  | malformedValue (name value : String)
  | typeMismatch (name : String) (expected : List String) (found : String)
  | notAReference (name : String)
  | invalidValueShape (name : String)
  | modelNotFound (model : Int)
  | missingModel (rdfid : String)
deriving DecidableEq, Repr

namespace Error

def message : Error → String
  | storage fault => "Storage error: " ++ fault.message
  | json _ => "JSON error"
  | interchange fault => "Interchange error: " ++ fault.message
  | unknownClass cimType => "Unknown CIM class: " ++ cimType
  | unknownAttribute cimType name =>
    "Unknown attribute '" ++ name ++ "' for class " ++ cimType
  | wrongClass expected found => "Expected a " ++ expected ++ " object, found " ++ found
  | malformedValue name value => "Malformed value for " ++ name ++ ": '" ++ value ++ "'"
  | typeMismatch name expected found =>
    "Type mismatch for " ++ name ++ ": expected one of " ++ Text.quotedList expected ++
      ", found " ++ found
  | notAReference name => "Attribute " ++ name ++ " does not hold an object reference"
  | invalidValueShape name => "Value of " ++ name ++ " has the wrong shape for its declared kind"
  | modelNotFound model => "CIM model not found: " ++ toString model
  | missingModel rdfid => "Object " ++ rdfid ++ " is not attached to a saved CIM model"

end Error

end CimStore

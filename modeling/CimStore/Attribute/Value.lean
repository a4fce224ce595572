/-!
# Sorts of attributes and their values as text

What an attribute can hold is its `AttributeSort`. Its kind (`AttributeKind`) and the type of its
text (`ValueType`) follow from it. Whatever the sort, a value is seen from outside as a `Value`:
one text, or the texts of a set.
-/

namespace CimStore

inductive AttributeSort
  | string | float | integer | boolean | phaseCode | reference | referenceSet
deriving DecidableEq, Repr

inductive AttributeKind
  | primitive | enumeration | reference | referenceSet
deriving DecidableEq, Repr

inductive ValueType
  | string | float | integer | boolean
deriving DecidableEq, Repr

namespace AttributeKind

def name : AttributeKind → String
  | primitive => "primitive"
  | enumeration => "enum"
  | reference => "reference"
  | referenceSet => "reference_set"

def isReference : AttributeKind → Bool
  | reference | referenceSet => true
  | primitive | enumeration => false

end AttributeKind

namespace ValueType

def name : ValueType → String
  | string => "String"
  | float => "Float"
  | integer => "Integer"
  | boolean => "Boolean"

/-- The type of a column that holds such values. -/
def columnType : ValueType → String
  | string => "TEXT"
  | float => "REAL"
  | integer | boolean => "INTEGER"

end ValueType

namespace AttributeSort

def kind : AttributeSort → AttributeKind
  | string | float | integer | boolean => .primitive
  | phaseCode => .enumeration
  | reference => .reference
  | referenceSet => .referenceSet

def valueType : AttributeSort → ValueType
  | float => .float
  | integer => .integer
  | boolean => .boolean
  | string | phaseCode | reference | referenceSet => .string

end AttributeSort

/-- The value of an attribute as text. -/
inductive Value
  | text (t : String)
  /-- The texts of a set, ascending. -/
  | texts (ts : List String)
deriving DecidableEq, Repr

namespace Value

/-- The text of a value that is one text. -/
def text? : Value → Option String
  | text t => some t
  | texts _ => none

/-- The texts of a set. -/
def members : Value → List String
  | text _ => []
  | texts ts => ts

/-- A set is shown in brackets. -/
def display : Value → String
  | text t => t
  | texts ts => "[" ++ ", ".intercalate ts ++ "]"

end Value

end CimStore

import CimStore.Catalog

/-!
# Names and statements of the schema

The tables that a store is laid out in: one for models, one for the identity of every object, one
per class with a column per used attribute that has one value, and one per used reference set.
Class and attribute names that are reserved words of SQL get an underscore in front.
-/

namespace CimStore.Schema

/-- The table of a class. -/
def tableName (cimType : String) : String :=
  if cimType = "Limit" then "_Limit" else cimType

/-- The column of an attribute. -/
def columnName (label : String) : String :=
  if label = "value" then "_value" else label

/-- The table of the members of a reference set. -/
def joinTableName (cimType label : String) : String :=
  tableName cimType ++ "_" ++ label

/-- A name in quotes, quotes inside it written twice. -/
def quote (name : String) : String :=
  "\"" ++ String.ofList (name.toList.flatMap fun c => if c = '"' then ['"', '"'] else [c]) ++ "\""

/-- The first `n` parameters of a statement. -/
def placeholders (n : Nat) : String :=
  ", ".intercalate ((List.range n).map fun i => "?" ++ toString (i + 1))

/-! ## The tables of every store -/

def createModelTable : String :=
  "\nCREATE TABLE IF NOT EXISTS cim_model (\n" ++
  "    id INTEGER PRIMARY KEY AUTOINCREMENT,\n" ++
  "    name TEXT\n" ++
  ")\n"

def createIdentityTable : String :=
  "\nCREATE TABLE IF NOT EXISTS base_class (\n" ++
  "    id INTEGER PRIMARY KEY AUTOINCREMENT,\n" ++
  "    rdfid TEXT NOT NULL,\n" ++
  "    cim_type TEXT NOT NULL,\n" ++
  "    cim_model_id INTEGER NOT NULL REFERENCES cim_model(id) ON DELETE CASCADE,\n" ++
  "    UNIQUE(cim_model_id, rdfid)\n" ++
  ")\n"

def createIndexes : List String :=
  ["CREATE INDEX IF NOT EXISTS idx_base_class_model ON base_class(cim_model_id)",
    "CREATE INDEX IF NOT EXISTS idx_base_class_type ON base_class(cim_type)"]

/-- The statements that every store starts with. -/
def statements : List String := createModelTable :: createIdentityTable :: createIndexes

/-- The settings of a connection. -/
def pragmas : List String := ["PRAGMA foreign_keys = ON"]

end CimStore.Schema

namespace CimStore

/-- The type of the column of an attribute. -/
def Descriptor.columnType (d : Descriptor) : String :=
  if d.kind = .primitive then d.valueType.columnType else "TEXT"

/-- Where a class keeps an attribute: in a column or in a table; nowhere if it is not used. -/
def CimClass.storageOf (c : CimClass) (d : Descriptor) : Option String :=
  if !d.isUsed then none
  else if d.kind = .referenceSet then some (Schema.joinTableName c.name d.label)
  else some (Schema.columnName d.label)

/-- The statement for the table of the class. -/
def CimClass.createTable (c : CimClass) : String :=
  let columns := c.columns.map fun d =>
    Schema.quote (Schema.columnName d.label) ++ " " ++ d.columnType
  "CREATE TABLE IF NOT EXISTS " ++ Schema.quote (Schema.tableName c.name) ++ " (\n    " ++
    ",\n    ".intercalate
      ("id INTEGER PRIMARY KEY REFERENCES base_class(id) ON DELETE CASCADE" :: columns) ++
    "\n)"

/-- The statement for the table of a reference set of the class. -/
def CimClass.createJoinTable (c : CimClass) (d : Descriptor) : String :=
  "CREATE TABLE IF NOT EXISTS " ++ Schema.quote (Schema.joinTableName c.name d.label) ++ " (\n" ++
  "    owner_id INTEGER NOT NULL REFERENCES base_class(id) ON DELETE CASCADE,\n" ++
  "    target_rdfid TEXT NOT NULL,\n" ++
  "    PRIMARY KEY (owner_id, target_rdfid)\n)"

/-- The statements for the tables of the class. -/
def CimClass.schema (c : CimClass) : List String :=
  c.createTable :: c.referenceSets.map c.createJoinTable

end CimStore

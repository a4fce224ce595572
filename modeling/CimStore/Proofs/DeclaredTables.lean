import CimStore.Proofs.TextParts
import CimStore.Store.Schema
import Mathlib.Data.List.Forall2

/-!
# The tables that statements declare

The statements of a schema are text. What a statement declares is read off it again, as SQL has it:
a name stands as it is or in quotes, a quote inside it written twice, and the definitions in
brackets are parted by commas that stand in neither quotes nor inner brackets. Here names are only
read; which of the tables a database makes is another matter, for it passes over a table whose name
is taken and refuses some names.

* `Schema.declared?`: the table that a statement names, with its columns;
* `Schema.takeName?_quote`: a quoted name is read as it was, whatever its characters;
* `Schema.definedColumns_body`: definitions that keep their quotes and brackets are read one by one;
* `CimClass.declared?_createTable`, `CimClass.declared?_createJoinTable`: what a class declares;
* `Schema.tables_eq`: the tables that the statements of a store declare;
* `Schema.filterMap_declaredIndex?_statements`: the indexes that they declare.
-/

namespace CimStore

namespace Schema

/-! ## Reading a statement -/

/-- A name up to its closing quote, and what follows that. -/
def takeQuoted? : List Char → Option (List Char × List Char)
  | [] => none
  | '"' :: '"' :: cs => (takeQuoted? cs).map fun r => ('"' :: r.1, r.2)
  | '"' :: cs => some ([], cs)
  | c :: cs => (takeQuoted? cs).map fun r => (c :: r.1, r.2)

/-- A character of a name that stands without quotes. -/
def isWordChar (c : Char) : Bool := c.isAlphanum || c = '_'

/-- A name, and what follows it. -/
def takeName? : List Char → Option (List Char × List Char)
  | '"' :: cs => takeQuoted? cs
  | cs =>
    if cs.takeWhile isWordChar = [] then none
    else some (cs.takeWhile isWordChar, cs.dropWhile isWordChar)

/-- Puts characters in front of the first part. -/
def onto (cs : List Char) (parts : List Char × List (List Char)) : List Char × List (List Char) :=
  (cs ++ parts.1, parts.2)

/-- The first definition and the others, up to the bracket that closes them, from a place between so
many inner brackets, in quotes or not. -/
def definitions : Nat → Bool → List Char → List Char × List (List Char)
  | _, _, [] => ([], [])
  | depth, quoted, c :: cs =>
    if c = '"' then onto [c] (definitions depth (!quoted) cs)
    else if quoted then onto [c] (definitions depth quoted cs)
    else if c = '(' then onto [c] (definitions (depth + 1) quoted cs)
    else if c = ')' then
      if depth = 0 then ([], []) else onto [c] (definitions (depth - 1) quoted cs)
    else if c = ',' && depth = 0 then
      ([], (definitions depth quoted cs).1 :: (definitions depth quoted cs).2)
    else onto [c] (definitions depth quoted cs)

/-- The words that begin a rule of the whole table. -/
def ruleWords : List String := ["PRIMARY", "UNIQUE", "FOREIGN", "CHECK", "CONSTRAINT"]

/-- The column that is defined, if the definition is that of a column. -/
def definedColumn? (definition : List Char) : Option String :=
  let cs := definition.dropWhile Text.isBlank
  if String.ofList (cs.takeWhile isWordChar) ∈ ruleWords then none
  else (takeName? cs).map fun r => String.ofList r.1

/-- The columns that are defined up to the closing bracket. -/
def definedColumns (body : List Char) : List String :=
  ((definitions 0 false body).1 :: (definitions 0 false body).2).filterMap definedColumn?

/-- A table that is declared and its columns, by their names. -/
structure Declared where
  table : String
  columns : List String
deriving DecidableEq, Repr

/-- The table that a statement declares. -/
def declared? (statement : String) : Option Declared := do
  let rest ← Text.afterLead? "CREATE TABLE IF NOT EXISTS ".toList
    (statement.toList.dropWhile Text.isBlank)
  let (table, rest) ← takeName? rest
  let body ← Text.afterLead? " (".toList rest
  return ⟨String.ofList table, definedColumns body⟩

/-- The index that a statement declares. -/
def declaredIndex? (statement : String) : Option String := do
  let rest ← Text.afterLead? "CREATE INDEX IF NOT EXISTS ".toList
    (statement.toList.dropWhile Text.isBlank)
  let (index, _) ← takeName? rest
  return String.ofList index

/-! ## Quoted names -/

/-- The characters of a name in quotes. -/
def escaped (cs : List Char) : List Char := cs.flatMap fun c => if c = '"' then ['"', '"'] else [c]

theorem toList_quote (name : String) :
    (quote name).toList = '"' :: (escaped name.toList ++ ['"']) := by
  simp [quote, escaped]

theorem takeQuoted?_escaped (cs : List Char) {rest : List Char} (h : rest.head? ≠ some '"') :
    takeQuoted? (escaped cs ++ '"' :: rest) = some (cs, rest) := by
  induction cs with
  | nil =>
    cases rest with
    | nil => rfl
    | cons c rest =>
      have hc : c ≠ '"' := fun heq => h (by rw [heq]; rfl)
      show takeQuoted? ('"' :: c :: rest) = _
      rw [takeQuoted?]
      simpa using hc
  | cons c cs ih =>
    by_cases hc : c = '"'
    · subst hc
      show takeQuoted? ('"' :: '"' :: (escaped cs ++ '"' :: rest)) = _
      rw [takeQuoted?, ih, Option.map_some]
    · have hstep : escaped (c :: cs) = c :: escaped cs := by simp [escaped, hc]
      rw [hstep, List.cons_append, takeQuoted?, ih, Option.map_some]
      · exact fun _ heq _ => hc heq
      · exact hc

/-- **A quoted name is read as it was.** -/
theorem takeName?_quote (name : String) {rest : List Char} (h : rest.head? ≠ some '"') :
    takeName? ((quote name).toList ++ rest) = some (name.toList, rest) := by
  rw [toList_quote, List.cons_append, List.append_assoc]
  exact takeQuoted?_escaped name.toList h

/-! ## Definitions in brackets -/

theorem onto_append (as bs : List Char) (parts : List Char × List (List Char)) :
    onto (as ++ bs) parts = onto as (onto bs parts) := by
  simp [onto]

/-- The characters are passed in one piece: their quotes and brackets close, and they have no comma
outside of them. -/
def Whole (cs : List Char) : Prop :=
  ∀ rest, definitions 0 false (cs ++ rest) = onto cs (definitions 0 false rest)

theorem Whole.append {as bs : List Char} (ha : Whole as) (hb : Whole bs) : Whole (as ++ bs) := by
  intro rest
  rw [List.append_assoc, ha, hb, onto_append]

/-- A character that is neither a quote nor a bracket nor a comma. -/
def isPlain (c : Char) : Bool := c != '"' && c != '(' && c != ')' && c != ','

theorem definitions_of_isPlain {cs : List Char} (h : cs.all isPlain = true) (depth : Nat)
    (rest : List Char) : definitions depth false (cs ++ rest) =
      onto cs (definitions depth false rest) := by
  induction cs with
  | nil => rfl
  | cons c cs ih =>
    rw [List.all_cons, Bool.and_eq_true] at h
    have hc := h.1
    simp only [isPlain, Bool.and_eq_true, bne_iff_ne, ne_eq] at hc
    simp [definitions, hc, ih h.2, onto]

theorem whole_of_isPlain {cs : List Char} (h : cs.all isPlain = true) : Whole cs :=
  definitions_of_isPlain h 0

/-- In quotes all characters are passed; one that is written twice opens the quotes again. -/
theorem definitions_escaped (cs rest : List Char) :
    definitions 0 true (escaped cs ++ rest) = onto (escaped cs) (definitions 0 true rest) := by
  induction cs with
  | nil => rfl
  | cons c cs ih =>
    by_cases hc : c = '"'
    · subst hc
      show definitions 0 true ('"' :: '"' :: (escaped cs ++ rest)) =
        onto ('"' :: '"' :: escaped cs) _
      simp [definitions, ih, onto]
    · have hstep : escaped (c :: cs) = c :: escaped cs := by simp [escaped, hc]
      rw [hstep, List.cons_append]
      simp [definitions, hc, ih, onto]

theorem whole_quote (name : String) : Whole (quote name).toList := by
  intro rest
  rw [toList_quote, List.cons_append, List.append_assoc]
  simp [definitions, definitions_escaped, onto]

theorem whole_brackets {cs : List Char} (h : cs.all isPlain = true) :
    Whole ('(' :: (cs ++ [')'])) := by
  intro rest
  have hinner := definitions_of_isPlain h 1 (')' :: rest)
  rw [List.cons_append, List.append_assoc]
  simp [definitions, hinner, onto]

/-! ## The definitions of a table -/

/-- The definition is passed in one piece and defines the column. -/
structure Defines (definition : List Char) (column : String) : Prop where
  whole : Whole definition
  named : ∀ lead trail, (∀ c ∈ lead, Text.isBlank c = true) →
    definedColumn? (lead ++ definition ++ trail) = some column

/-- A new line, indented. -/
def indent : List Char := "\n    ".toList

theorem isBlank_indent : ∀ c ∈ indent, Text.isBlank c = true :=
  List.all_eq_true.mp (by decide +kernel)

theorem whole_indent : Whole indent := whole_of_isPlain (by decide +kernel)

/-- **Definitions are read one by one.** -/
theorem definedColumns_body {ds : List (List Char)} {columns : List String}
    (h : List.Forall₂ Defines ds columns) (hne : ds ≠ []) :
    definedColumns (indent ++ List.intercalate (',' :: indent) ds ++ ['\n', ')']) = columns := by
  have hpass : ∀ {d : List Char} {column : String}, Defines d column → ∀ rest,
      definitions 0 false (indent ++ d ++ rest) = onto (indent ++ d) (definitions 0 false rest) :=
    fun hd => whole_indent.append hd.whole
  induction h with
  | nil => exact absurd rfl hne
  | @cons d column ds columns hd hds ih =>
    cases hds with
    | nil =>
      rw [List.intercalate_singleton, definedColumns, hpass hd]
      exact congrArg (·.toList) (hd.named indent ['\n'] isBlank_indent)
    | @cons e column' ds columns he hds =>
      have hrest := ih (List.cons_ne_nil _ _)
      rw [List.intercalate_cons_cons]
      have hbody : indent ++ (d ++ ',' :: indent ++ List.intercalate (',' :: indent) (e :: ds)) ++
          ['\n', ')'] = indent ++ d ++ (',' ::
            (indent ++ List.intercalate (',' :: indent) (e :: ds) ++ ['\n', ')'])) := by
        simp
      rw [hbody, definedColumns, hpass hd]
      have hfirst : definedColumn? (indent ++ d ++ []) = some column :=
        hd.named indent [] isBlank_indent
      show ((indent ++ d ++ []) :: _).filterMap definedColumn? = _
      rw [List.filterMap_cons_some hfirst]
      exact congrArg (column :: ·) hrest

/-- A quoted name in front of a type defines a column. -/
theorem defines_quote (name : String) {type : List Char} (h : type.all isPlain = true) :
    Defines ((quote name).toList ++ ' ' :: type) name where
  whole := (whole_quote name).append (whole_of_isPlain (by
    rw [List.all_cons, h]
    rfl))
  named lead trail hlead := by
    have hread : takeName? ((quote name).toList ++ ' ' :: (type ++ trail)) =
        some (name.toList, ' ' :: (type ++ trail)) := takeName?_quote name (by simp)
    have hblank : Text.isBlank '"' = false := by decide
    have hword : isWordChar '"' = false := by decide
    have hnone : String.ofList [] ∉ ruleWords := by decide +kernel
    obtain ⟨cs, hcs⟩ : ∃ cs, (quote name).toList ++ ' ' :: (type ++ trail) = '"' :: cs :=
      ⟨_, by rw [toList_quote, List.cons_append]⟩
    rw [hcs] at hread
    rw [List.append_assoc, List.append_assoc, definedColumn?, List.dropWhile_append_of_pos hlead,
      List.cons_append, hcs, List.dropWhile_cons_of_neg (by simp [hblank]),
      List.takeWhile_cons_of_neg (by simp [hword]), if_neg hnone, hread, Option.map_some,
      String.ofList_toList]

/-- The definition of the key of a class table. -/
def keyDefinition : List Char :=
  "id INTEGER PRIMARY KEY REFERENCES base_class(id) ON DELETE CASCADE".toList

theorem defines_keyDefinition : Defines keyDefinition "id" where
  whole := by
    have hparts : keyDefinition = "id INTEGER PRIMARY KEY REFERENCES base_class".toList ++
        ('(' :: ("id".toList ++ [')'])) ++ " ON DELETE CASCADE".toList := by decide +kernel
    rw [hparts]
    refine Whole.append (.append (whole_of_isPlain ?_) (whole_brackets ?_)) (whole_of_isPlain ?_)
    all_goals decide +kernel
  named lead trail hlead := by
    have hkey : keyDefinition = 'i' :: 'd' :: ' ' :: keyDefinition.drop 3 := by decide +kernel
    rw [List.append_assoc, definedColumn?, List.dropWhile_append_of_pos hlead, hkey]
    rfl

/-- The definitions of a table of members, with the bracket that closes them. -/
def memberDefinitions : List Char :=
  "\n".toList ++
    ("    owner_id INTEGER NOT NULL REFERENCES base_class(id) ON DELETE CASCADE,\n".toList ++
    ("    target_rdfid TEXT NOT NULL,\n".toList ++
    "    PRIMARY KEY (owner_id, target_rdfid)\n)".toList))

/-- The rule that ends the table defines no column. -/
theorem definedColumns_memberDefinitions :
    definedColumns memberDefinitions = ["owner_id", "target_rdfid"] := by
  decide +kernel

end Schema

open Schema

/-! ## What a class declares -/

/-- The table of a class. -/
def CimClass.declaredTable (c : CimClass) : Declared :=
  ⟨tableName c.name, "id" :: c.columns.map fun d => columnName d.label⟩

/-- The table of the members of a reference set. -/
def CimClass.declaredJoinTable (c : CimClass) (d : Descriptor) : Declared :=
  ⟨joinTableName c.name d.label, ["owner_id", "target_rdfid"]⟩

/-- The tables of a class and of its used reference sets. -/
def CimClass.declaredTables (c : CimClass) : List Declared :=
  c.declaredTable :: c.referenceSets.map c.declaredJoinTable

/-- A table is read off its statement. -/
theorem Schema.declared?_eq (name : String) (body : List Char) {statement : String}
    (h : statement.toList = "CREATE TABLE IF NOT EXISTS ".toList ++
      ((quote name).toList ++ (" (".toList ++ body))) :
    declared? statement = some ⟨name, definedColumns body⟩ := by
  have hcreate : Text.afterLead? "CREATE TABLE IF NOT EXISTS ".toList
      (statement.toList.dropWhile Text.isBlank) =
        some ((quote name).toList ++ (" (".toList ++ body)) := by
    rw [Text.afterLead?_eq_some_iff, h]
    rfl
  have hname : takeName? ((quote name).toList ++ (" (".toList ++ body)) =
      some (name.toList, " (".toList ++ body) := takeName?_quote name (by simp)
  have hbody : Text.afterLead? " (".toList (" (".toList ++ body) = some body :=
    Text.afterLead?_eq_some_iff.mpr rfl
  rw [declared?, hcreate, Option.bind_eq_bind, Option.bind_some, hname, Option.bind_eq_bind,
    Option.bind_some]
  show (Text.afterLead? " (".toList (" (".toList ++ body)).bind _ = _
  rw [hbody, Option.bind_some, String.ofList_toList]
  rfl

theorem Descriptor.isPlain_columnType (d : Descriptor) :
    d.columnType.toList.all isPlain = true := by
  unfold Descriptor.columnType
  split
  · cases d.valueType <;> decide +kernel
  · decide +kernel

/-- **The statement of a class declares its table**, with the key and a column per attribute. -/
theorem CimClass.declared?_createTable (c : CimClass) :
    declared? c.createTable = some c.declaredTable := by
  have hopen : " (\n    ".toList = " (".toList ++ indent := by simp [indent]
  have hcomma : ",\n    ".toList = ',' :: indent := by simp [indent]
  have hclose : "\n)".toList = ['\n', ')'] := rfl
  have hkey : "id INTEGER PRIMARY KEY REFERENCES base_class(id) ON DELETE CASCADE".toList =
      keyDefinition := rfl
  have hcolumn : (String.toList ∘ fun d : Descriptor =>
      quote (columnName d.label) ++ " " ++ d.columnType) =
        fun d => (quote (columnName d.label)).toList ++ ' ' :: d.columnType.toList := by
    funext d
    simp
  have htext : c.createTable.toList = "CREATE TABLE IF NOT EXISTS ".toList ++
      ((quote (tableName c.name)).toList ++ (" (".toList ++ (indent ++
        List.intercalate (',' :: indent) (keyDefinition :: c.columns.map fun d =>
          (quote (columnName d.label)).toList ++ ' ' :: d.columnType.toList) ++ ['\n', ')']))) := by
    unfold createTable
    simp only [String.toList_append, String.toList_intercalate, List.map_cons, List.map_map]
    rw [hopen, hcomma, hclose, hcolumn, hkey]
    simp only [List.append_assoc]
  have hdefines : List.Forall₂ Defines (keyDefinition :: c.columns.map fun d =>
      (quote (columnName d.label)).toList ++ ' ' :: d.columnType.toList)
      ("id" :: c.columns.map fun d => columnName d.label) := by
    refine .cons defines_keyDefinition ?_
    rw [List.forall₂_map_left_iff, List.forall₂_map_right_iff, List.forall₂_same]
    exact fun d _ => defines_quote _ d.isPlain_columnType
  rw [declared?_eq _ _ htext, definedColumns_body hdefines (List.cons_ne_nil _ _)]
  rfl

/-- **The statement of a reference set declares the table of its members.** -/
theorem CimClass.declared?_createJoinTable (c : CimClass) (d : Descriptor) :
    declared? (c.createJoinTable d) = some (c.declaredJoinTable d) := by
  have hopen : " (\n".toList = " (".toList ++ "\n".toList := by simp
  have htext : (c.createJoinTable d).toList = "CREATE TABLE IF NOT EXISTS ".toList ++
      ((quote (joinTableName c.name d.label)).toList ++ (" (".toList ++ memberDefinitions)) := by
    unfold createJoinTable
    simp only [String.toList_append]
    rw [hopen]
    simp only [List.append_assoc]
    rfl
  rw [declared?_eq _ _ htext, definedColumns_memberDefinitions]
  rfl

/-- Every statement of a class declares a table. -/
theorem CimClass.filterMap_declared?_schema (c : CimClass) :
    c.schema.filterMap declared? = c.declaredTables := by
  have hsets : (declared? ∘ c.createJoinTable) = some ∘ c.declaredJoinTable :=
    funext c.declared?_createJoinTable
  rw [schema, List.filterMap_cons_some c.declared?_createTable, List.filterMap_map, hsets,
    List.filterMap_eq_map]
  rfl

namespace Schema

/-- The table of the models. -/
def modelTable : Declared := ⟨"cim_model", ["id", "name"]⟩

/-- The table of the identities. -/
def identityTable : Declared := ⟨"base_class", ["id", "rdfid", "cim_type", "cim_model_id"]⟩

theorem declared?_createModelTable : declared? createModelTable = some modelTable := by
  decide +kernel

theorem declared?_createIdentityTable : declared? createIdentityTable = some identityTable := by
  unfold declared? createIdentityTable
  simp only [String.toList_append]
  decide +kernel

/-- The indexes of the table of the identities. -/
def indexes : List String := ["idx_base_class_model", "idx_base_class_type"]

/-- These are the indexes that the statements of every store declare. -/
theorem filterMap_declaredIndex?_statements : statements.filterMap declaredIndex? = indexes := by
  have hmodel : declaredIndex? createModelTable = none := by decide +kernel
  have hidentity : declaredIndex? createIdentityTable = none := by
    unfold declaredIndex? createIdentityTable
    simp only [String.toList_append]
    decide +kernel
  rw [statements, List.filterMap_cons_none hmodel, List.filterMap_cons_none hidentity]
  decide +kernel

/-- The tables that the statements of a store declare, if it knows the classes. -/
def tables (cs : List CimClass) : List Declared :=
  (statements ++ cs.flatMap CimClass.schema).filterMap declared?

/-- **The tables that a store declares**: that of the models, that of the identities, and those of
the classes. -/
theorem tables_eq (cs : List CimClass) :
    tables cs = modelTable :: identityTable :: cs.flatMap CimClass.declaredTables := by
  have hindexes : createIndexes.filterMap declared? = [] := by decide +kernel
  rw [tables, List.filterMap_append, statements,
    List.filterMap_cons_some declared?_createModelTable,
    List.filterMap_cons_some declared?_createIdentityTable, hindexes, List.filterMap_flatMap]
  simp only [CimClass.filterMap_declared?_schema]
  rfl

end Schema

end CimStore

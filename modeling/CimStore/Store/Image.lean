import CimStore.Json.Print
import CimStore.Json.Scan
import CimStore.Store.Database

/-!
# The text image of a database

A database is kept in a file as text: `Image.render` writes it and `Image.read?` reads it again.
The text is made of records, one a line. A record is a row of words, the first of which says what
the record is about; texts stand in quotes. Records of rows, cells and sets belong to the object
whose record stands in front of them.
-/

namespace CimStore.Image

/-- A word of a record. -/
inductive Word
  | plain (cs : List Char)
  | quoted (t : String)
deriving DecidableEq

/-- The first line of every image. -/
def mark : String := "CIM store image 1"

/-! ## Writing -/

def Word.render : Word → List Char
  | plain cs => cs
  | quoted t => Json.quote t

def name (s : String) : Word := .plain s.toList

def number (i : Int) : Word := .plain (formatInteger i).toList

def renderRecord (ws : List Word) : String :=
  String.ofList ((ws.map Word.render).intersperse [' ']).flatten ++ "\n"

def cellWords : Cell → List Word
  | .null => [name "null"]
  | .integer i => [name "integer", number i]
  | .real x => [name (if x.negative then "negative" else "positive"), number x.mantissa,
      number x.exponent]
  | .text t => [name "text", .quoted t]

def rowRecords (e : String × ClassRow) : List (List Word) :=
  [name "row", .quoted e.1] ::
    (e.2.cells.entries.map fun c => name "cell" :: .quoted c.1 :: cellWords c.2) ++
    e.2.members.entries.map fun s => name "set" :: .quoted s.1 :: s.2.map Word.quoted

def objectRecords (e : Int × StoredObject) : List (List Word) :=
  [name "object", number e.1, number e.2.model, .quoted e.2.rdfid, .quoted e.2.cimType] ::
    e.2.rows.entries.flatMap rowRecords

def modelRecord (e : Int × Option String) : List Word :=
  name "model" :: number e.1 :: e.2.toList.map Word.quoted

def render (db : Database) : String :=
  mark ++ "\n" ++ String.join
    (([name "last", number db.lastModel, number db.lastObject] ::
      db.models.entries.map modelRecord ++ db.objects.entries.flatMap objectRecords).map
        renderRecord)

/-! ## Reading -/

/-- The words of a record, of which `fuel` at most are read. -/
def words : Nat → List Char → Option (List Word)
  | 0, _ => none
  | _ + 1, [] => some []
  | fuel + 1, ' ' :: cs => words fuel cs
  | fuel + 1, '"' :: cs => do
    let (t, cs) ← (Json.stringTail cs).toOption
    return .quoted t :: (← words fuel cs)
  | fuel + 1, cs => do
    let (w, cs) := (cs.takeWhile (· ≠ ' '), cs.dropWhile (· ≠ ' '))
    return .plain w :: (← words fuel cs)

def number? : Word → Option Int
  | .plain cs => integerOfChars? cs
  | .quoted _ => none

def natural? (w : Word) : Option Nat := do
  let i ← number? w
  if 0 ≤ i then some i.toNat else none

def quoted? : Word → Option String
  | .plain _ => none
  | .quoted t => some t

def real? (negative : Bool) (mantissa exponent : Word) : Option Cell := do
  let x ← Binary.ofParts? binary64 negative (← natural? mantissa) (← number? exponent)
  some (.real x)

def cell? : List Word → Option Cell
  | [kind] => if kind = name "null" then some .null else none
  | [kind, w] =>
    if kind = name "integer" then (number? w).map .integer
    else if kind = name "text" then (quoted? w).map .text
    else none
  | [sign, mantissa, exponent] =>
    if sign = name "positive" then real? false mantissa exponent
    else if sign = name "negative" then real? true mantissa exponent
    else none
  | _ => none

/-- What has been read of an image: all but the last object, that object, and the last of its
rows. -/
structure Draft where
  db : Database := {}
  object? : Option (Int × StoredObject) := none
  row? : Option (String × ClassRow) := none

namespace Draft

/-- Puts the last row into its object. -/
def closeRow (d : Draft) : Draft :=
  match d.object?, d.row? with
  | some (id, o), some (cls, row) =>
    { d with object? := some (id, { o with rows := o.rows.insert cls row }), row? := none }
  | _, _ => d

/-- Puts the last object into the database. -/
def closeObject (d : Draft) : Draft :=
  let d := d.closeRow
  match d.object? with
  | some (id, o) =>
    { d with db := { d.db with objects := d.db.objects.insert id o }, object? := none }
  | none => d

/-- The draft with a change to the last row. -/
def changeRow (d : Draft) (f : ClassRow → ClassRow) : Option Draft := do
  let (cls, row) ← d.row?
  some { d with row? := some (cls, f row) }

/-- Takes in a record. -/
def add (d : Draft) : List Word → Option Draft
  | [] => none
  | kind :: ws =>
    if kind = name "last" then
      match ws with
      | [model, object] => do
        some { d with db := { d.db with
          lastModel := ← number? model, lastObject := ← number? object } }
      | _ => none
    else if kind = name "model" then
      match ws with
      | [] => none
      | id :: names => do
        let id ← number? id
        let model ← match names with
          | [] => some none
          | [w] => (quoted? w).map some
          | _ => none
        some { d with db := { d.db with models := d.db.models.insert id model } }
    else if kind = name "object" then
      match ws with
      | [id, model, rdfid, cimType] => do
        let o : StoredObject :=
          { rdfid := ← quoted? rdfid, cimType := ← quoted? cimType, model := ← number? model
            rows := SortedMap.empty }
        some { d.closeObject with object? := some (← number? id, o) }
      | _ => none
    else if kind = name "row" then
      match ws with
      | [cls] => do
        some { d.closeRow with row? := some (← quoted? cls, ⟨SortedMap.empty, SortedMap.empty⟩) }
      | _ => none
    else if kind = name "cell" then
      match ws with
      | [] => none
      | column :: cell => do
        let column ← quoted? column
        let cell ← cell? cell
        d.changeRow fun row => { row with cells := row.cells.insert column cell }
    else if kind = name "set" then
      match ws with
      | [] => none
      | label :: members => do
        let label ← quoted? label
        let members ← members.mapM quoted?
        d.changeRow fun row => { row with members := row.members.insert label members }
    else none

end Draft

/-- The database of an image; nothing if the text is no image. -/
def read? (text : String) : Option Database := do
  let first :: lines := Text.splitAt '\n' text.toList | none
  if first ≠ mark.toList then none
  else
    let records ← (lines.filter (· ≠ [])).mapM fun l => words (l.length + 1) l
    let d ← records.foldlM Draft.add {}
    some d.closeObject.db

end CimStore.Image

/-!
# The tables of a TOML document

A TOML document is a table of values, tables and lists of tables. `Members.put` adds a value under
a dotted key, `Members.openTable` and `Members.openList` follow a header. Each gives nothing where
the document would define a key twice or reach into a value.

What may be added to a table depends on what brought it about: its own header, a header for a table
below it, or a dotted key.
-/

namespace CimStore.Toml

/-- A value, as far as a reader of settings tells values apart. -/
inductive Value
  | string (text : String)
  | boolean (b : Bool)
  /-- A number, a date or time, a list or an inline table. -/
  | other
deriving DecidableEq, Repr

/-- What brought a table about. -/
inductive Origin
  | header
  /-- The header of a table below it. -/
  | headerBelow
  | dottedKey
deriving DecidableEq, Repr

inductive Node
  | value (v : Value)
  | table (origin : Origin) (members : List (String × Node))
  /-- A list of tables, with the members of its last table. -/
  | tables (last : List (String × Node))

/-- What a table holds, each key once. -/
abbrev Members := List (String × Node)

namespace Members

def get? (ms : Members) (key : String) : Option Node := (ms.find? (·.1 = key)).map (·.2)

/-- The members with `node` under `key`. -/
def set (ms : Members) (key : String) (node : Node) : Members :=
  (key, node) :: ms.filter (·.1 ≠ key)

/-- Adds a value under a dotted key: the names of tables, then the name of the value. Tables that
are not there yet come about; a table with a header of its own is closed to dotted keys. -/
def put : List String → String → Value → Members → Option Members
  | [], key, v, ms => if (ms.get? key).isSome then none else some (ms.set key (.value v))
  | name :: names, key, v, ms =>
    match ms.get? name with
    | none => (put names key v []).map fun below => ms.set name (.table .dottedKey below)
    | some (.table .dottedKey below) =>
      (put names key v below).map fun below => ms.set name (.table .dottedKey below)
    | some (.table .headerBelow below) =>
      if names.isEmpty then none
      else (put names key v below).map fun below => ms.set name (.table .headerBelow below)
    | some (.tables below) =>
      if names.isEmpty then none
      else (put names key v below).map fun below => ms.set name (.tables below)
    | some (.table .header _) | some (.value _) => none

/-- Changes the members of the table that a header leads to. In a list of tables it leads to the
last one; tables that are not there yet come about. -/
def change (f : Members → Option Members) : List String → Members → Option Members
  | [], ms => f ms
  | name :: names, ms =>
    match ms.get? name with
    | none => (change f names []).map fun below => ms.set name (.table .headerBelow below)
    | some (.table origin below) =>
      (change f names below).map fun below => ms.set name (.table origin below)
    | some (.tables below) => (change f names below).map fun below => ms.set name (.tables below)
    | some (.value _) => none

/-- Follows the header of a table. A table may have one header. -/
def openTable (path : List String) (ms : Members) : Option Members := do
  let name ← path.getLast?
  ms.change (fun ms =>
    match ms.get? name with
    | none => some (ms.set name (.table .header []))
    | some (.table .headerBelow below) => some (ms.set name (.table .header below))
    | some _ => none) path.dropLast

/-- Follows the header of one more table of a list. -/
def openList (path : List String) (ms : Members) : Option Members := do
  let name ← path.getLast?
  ms.change (fun ms =>
    match ms.get? name with
    | none | some (.tables _) => some (ms.set name (.tables []))
    | some _ => none) path.dropLast

end Members

end CimStore.Toml

import CimStore.Toml.Scan

/-!
# Reading a TOML document

`Toml.read` gives the members of a document's top table, or nothing if the text is no document: it
breaks the grammar somewhere, or it defines something twice.
-/

namespace CimStore.Toml

/-- What has been read of a document, and the header that its next values stand under. -/
structure Draft where
  root : Members := []
  path : List String := []

/-- The rest after the end of a header. -/
def headerEnd (close : String) (cs : List Char) : Option (List Char) := do
  endLine? (← word? close cs)

/-- Reads one line that is neither empty nor a comment. -/
def line (d : Draft) : Scan Draft
  | '[' :: '[' :: cs => do
    let (path, cs) ← key cs
    let root ← d.root.openList path
    some ({ root, path }, ← headerEnd "]]" cs)
  | '[' :: cs => do
    let (path, cs) ← key cs
    let root ← d.root.openTable path
    some ({ root, path }, ← headerEnd "]" cs)
  | cs => do
    let ((path, v), cs) ← pair value cs
    let root ← d.root.change (·.putPath path v) d.path
    some ({ d with root }, ← endLine? cs)

/-- Reads the lines of a document, of which `fuel` at most. -/
def lines : Nat → Draft → List Char → Option Draft
  | 0, _, _ => none
  | fuel + 1, d, cs =>
    match skipSpace cs with
    | [] => some d
    | cs => do
      let (d, cs) ← line d cs
      lines fuel d cs

/-- The members of a document. A byte order mark may stand in front of it. -/
def read (text : String) : Option Members :=
  let cs := match text.toList with
    | '\ufeff' :: cs => cs
    | cs => cs
  (lines (cs.length + 1) {} cs).map (·.root)

end CimStore.Toml

import CimStore.Disk.Companions
import CimStore.Store.Header

/-!
# Databases on a disk

`Disk.openDatabase` opens the database that a text names: an existing one, or a new one where there
is no file or an empty one. `Opened.keep` puts a database back into its file.

A place of a database is found name by name in the text of its path, so a way up may lead out of a
folder that does not exist, and a slash at the end is of no account. Beside the file there must be
room for a journal, whose name is longer by an ending.
-/

namespace CimStore

/-- An open database. -/
structure Opened where
  content : Database
  /-- Where its file is; nothing if it is gone when it is closed. -/
  place? : Option Place
  isReadOnly : Bool

namespace Disk

/-- The most bytes that the place of a database may have on the way to it. -/
def longestPlace : Nat := 511

/-- The place of a name in the text of a database's path. There need be nothing at the place, but
no file may be in the way. -/
def databaseStep (d : Disk) (p : Place) (n : Name) : Option Place :=
  if n = Name.here then some p
  else if n = Name.up then some p.dropLast
  else
    let p := p ++ [n]
    if longestPlace < Name.slashedLength p then none
    else
      match p.foldlM d.step [] with
      | .ok _ | .error .missing => some p
      | .error _ => none

/-- The place of the file of a database, with room for the place of its journal. It is never the
root. -/
def databasePlace (d : Disk) (file : List UInt8) : Option Place := do
  let path : Path := ⟨file⟩
  let p ← path.names.foldlM d.databaseStep (if path.fromRoot then [] else d.here)
  if p.isEmpty || longestPlace + 1 < Name.slashedLength p + journalEnding.length then none
  else some p

/-- Sets up a database in a file in which nothing is stored yet. -/
def setUp (d : Disk) (isReadOnly hasRoom : Bool) (p : Place) : Except OpenFault Opened × Disk :=
  if isReadOnly then (.error .readOnly, d)
  else if !d.canKeepJournal p then (.error .noJournal, d)
  else if !hasRoom then (.error .damaged, d.removeFile (beside p journalEnding))
  else (.ok ⟨{}, some p, false⟩, d.putDatabase p {})

/-- Opens the database in what is at a place. -/
def openEntry (d : Disk) (text : String) (a : Address) (p : Place) :
    Entry → Except OpenFault Opened × Disk
  | .folder => (.error (if a.mode = .readOnly then .cannotRead else .cannotOpen text), d)
  | .sink => (.error (if a.isReadOnly then .readOnly else .cannotFlush), d)
  | .binary => settled false fun d => (.error .notDatabase, d)
  | .database db => settled false fun d => (.ok ⟨db, some p, a.isReadOnly⟩, d)
  | .text t =>
    match Header.judge (Text.bytes t) with
    | .empty => settled true fun d => d.setUp a.isReadOnly true p
    | .foreign => settled false fun d => (.error .notDatabase, d)
    | .unknownFormat => settled false fun d => (.error .unknownFormat, d)
    | .damaged => settled false fun d => (.error .damaged, d)
    | .blank isReadOnly hasRoom =>
      settled false fun d => d.setUp (a.isReadOnly || isReadOnly) hasRoom p
where
  /-- Goes on when the files beside the database have been dealt with. -/
  settled (isEmpty : Bool) (next : Disk → Except OpenFault Opened × Disk) :
      Except OpenFault Opened × Disk :=
    match d.settle a p isEmpty with
    | (.error fault, d) => (.error fault, d)
    | (.ok (), d) =>
      match next d with
      | (.error fault, d) => (.error fault, d)
      | (.ok o, d) => (.ok o, d.closeLog a p)

/-- Opens the database in the file at a place. -/
def openAt (d : Disk) (text : String) (a : Address) (p : Place) :
    Except OpenFault Opened × Disk :=
  match d.get? p with
  | some e => d.openEntry text a p e
  | none =>
    if d.isFolder p.dropLast && a.mode = .readWrite then
      (d.put p (.text "")).openEntry text a p (.text "")
    else (.error (.cannotOpen text), d)

/-- Opens the database that a text names. A new file is left behind even if opening fails. -/
def openDatabase (d : Disk) (text : String) : Except OpenFault Opened × Disk :=
  let bs := Text.bytes text
  match bs.findIdx? (· = 0) with
  | some position => (.error (.nul position), d)
  | none =>
    match Address.parse text with
    | .error fault => (.error (.address fault), d)
    | .ok a =>
      if a.isTransient then
        (if a.isReadOnly then .error .readOnly else .ok ⟨{}, none, false⟩, d)
      else
        match d.databasePlace a.file with
        | none => (.error (.cannotOpen text), d)
        | some p =>
          if a.sample?.all fun file => d.contains ⟨file⟩ then d.openAt text a p
          else (.error .noSample, d)

/-- Keeps what an open database holds now. Fails if it has changed and must not or cannot. -/
def keep (d : Disk) (o : Opened) (db : Database) : Except OpenFault Disk :=
  if db = o.content then .ok d
  else if o.isReadOnly then .error .readOnly
  else
    match o.place? with
    | none => .ok d
    | some p => if d.canKeepJournal p then .ok (d.putDatabase p db) else .error .noJournal

end Disk

end CimStore

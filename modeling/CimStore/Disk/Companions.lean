import CimStore.Disk
import CimStore.Disk.OpenFault

/-!
# Files beside a database

The database engine keeps files beside that of a database, with names that are longer by an ending:
a journal while a change is made, a log of changes, and with some layers a lock. When a database is
opened, what has been left of them is dealt with: `Disk.settle` undoes a change that a journal says
has not been finished and removes a log.

There is no journal of the engine's own to be found here, as every change is finished. So what
stands at such a place is something else, which undoes nothing and is removed nevertheless.
-/

namespace CimStore

namespace Disk

/-- The ending of the name of a journal. -/
def journalEnding : String := "-journal"

/-- The ending of the name of a log of changes. -/
def logEnding : String := "-wal"

/-- The ending of the name of a lock. -/
def lockEnding : String := ".lock"

/-- The place beside a file whose name is longer by an ending. -/
def beside (p : Place) (ending : String) : Place :=
  p.dropLast ++ [p.getLast?.getD [] ++ Text.bytes ending]

/-- Whether the name beside a file is not too long. -/
def fitsBeside (p : Place) (ending : String) : Bool :=
  ((beside p ending).getLast?.getD []).length ≤ Name.maxLength

/-- What is at a place. An empty file counts as none. -/
def getFilled? (d : Disk) (p : Place) : Option Entry :=
  match d.get? p with
  | some (.text "") => none
  | e? => e?

def remove (d : Disk) (p : Place) : Disk := { d with entries := d.entries.erase p }

/-- Removes a file. A folder stays. -/
def removeFile (d : Disk) (p : Place) : Disk := if d.isFolder p then d else d.remove p

/-! ## What is left of earlier use -/

/-- Checks that nobody else uses a database, as far as a lock beside it can say so. -/
def checkLock (d : Disk) (a : Address) (p : Place) : Except OpenFault Unit :=
  if !a.keepsLock then .ok ()
  else if !fitsBeside p lockEnding then .error .cannotLock
  else if (d.get? (beside p lockEnding)).isSome then .error .locked
  else .ok ()

/-- Whether a change of a database seems to be under way: there is a lock beside it, of which no
layer knows whether it is its own. -/
def seemsInChange (d : Disk) (a : Address) (p : Place) : Bool :=
  a.hasLockFiles && (a.locks || (d.get? (beside p lockEnding)).isSome)

/-- Whether a journal says that a change has not been finished: its first byte is not zero. -/
def Entry.isUnfinished : Entry → Bool
  | .text t => (Text.bytes t).head?.any (· ≠ 0)
  | .database _ | .binary => true
  | .folder | .sink => false

/-- Deals with what is at the place of the journal of a database, `isEmpty` if that has no page. -/
def settleJournal (d : Disk) (a : Address) (p : Place) (isEmpty : Bool) :
    Except OpenFault Disk :=
  let journal := beside p journalEnding
  match if d.seemsInChange a p then none else d.getFilled? journal with
  | none => .ok d
  | some e =>
    if isEmpty then .ok (if a.mode = .readOnly && a.locks then d else d.removeFile journal)
    else if e = .folder then .error .cannotRead
    else if !e.isUnfinished then .ok d
    else if a.mode = .readOnly then .error .cannotUndo
    else .ok (d.remove journal)

/-- Deals with what is at the place of the log of a database. That of a database with pages stays
until the database is closed. -/
def settleLog (d : Disk) (a : Address) (p : Place) (isEmpty : Bool) : Except OpenFault Disk :=
  let log := beside p logEnding
  match d.getFilled? log with
  | none => .ok d
  | some e =>
    if isEmpty then if e = .folder then .error .cannotRemove else .ok (d.remove log)
    else if e = .folder || !a.keepsLog then .error .noJournal
    else .ok d

/-- Deals with what has been left beside the file of a database, unless nobody changes that. A
journal that is removed stays so if the log is in the way. -/
def settle (d : Disk) (a : Address) (p : Place) (isEmpty : Bool) : Except OpenFault Unit × Disk :=
  if a.immutable then (.ok (), d)
  else
    match do d.checkLock a p; d.settleJournal a p isEmpty with
    | .error fault => (.error fault, d)
    | .ok d =>
      match d.settleLog a p isEmpty with
      | .error fault => (.error fault, d)
      | .ok d => (.ok (), d)

/-- Removes the log of a database that is closed after use. -/
def closeLog (d : Disk) (a : Address) (p : Place) : Disk :=
  if a.immutable || a.mode = .readOnly || (d.getFilled? (beside p logEnding)).isNone then d
  else d.removeFile (beside p logEnding)

/-! ## A change -/

/-- Whether a change of a database can have a journal. -/
def canKeepJournal (d : Disk) (p : Place) : Bool :=
  fitsBeside p journalEnding && !d.isFolder (beside p journalEnding)

/-- Puts a database into its file. Its journal is gone afterwards. -/
def putDatabase (d : Disk) (p : Place) (db : Database) : Disk :=
  (d.removeFile (beside p journalEnding)).put p (.database db)

end Disk

end CimStore

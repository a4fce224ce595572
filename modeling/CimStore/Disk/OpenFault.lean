import CimStore.Store.Address

/-!
# Why a database is not opened

An `OpenFault` is a cause for which a database cannot be opened or not be changed. Most of them are
reported by the database engine, with a code and what the code means.
-/

namespace CimStore

/-- Why a database cannot be opened, or not be changed. -/
inductive OpenFault
  /-- The text has a NUL at a position. -/
  | nul (position : Nat)
  | address (fault : AddressFault)
  /-- There is no file under the text and none can be made. -/
  | cannotOpen (text : String)
  /-- The file is read like one but is none. -/
  | cannotRead
  /-- The file whose access rights a new file is to have is not there. -/
  | noSample
  /-- Another file says that the database is in use. -/
  | locked
  /-- The file that is to say so has no place. -/
  | cannotLock
  /-- The journal of a change, or the log of changes, has no place. -/
  | noJournal
  /-- A change that was not finished cannot be undone. -/
  | cannotUndo
  /-- A log of changes cannot be removed. -/
  | cannotRemove
  /-- What has been written cannot be made to last. -/
  | cannotFlush
  | readOnly
  | notDatabase
  /-- The database has a format that is not known. -/
  | unknownFormat
  | damaged
deriving DecidableEq, Repr

namespace OpenFault

/-- What the database engine reports: what has happened, twice, and a code with its meaning. -/
def engine (what : String) (code : Nat) (meaning : String) : List String :=
  [what, what, "Error code " ++ toString code ++ ": " ++ meaning]

/-- The meaning of the code for a file that cannot be opened. -/
def cannotOpenMeaning : String := "Unable to open the database file"

/-- The causes that are named, from the outside in. -/
def causes : OpenFault → List String
  | nul position =>
    List.replicate 3 ("nul byte found in provided data at position: " ++ toString position)
  | address (.modeNotAllowed mode) =>
    engine (AddressFault.modeNotAllowed mode).message 3 "Access permission denied"
  | address fault => engine fault.message 1 "SQL error or missing database"
  | cannotOpen text => engine ("unable to open database file: " ++ text) 14 cannotOpenMeaning
  | cannotRead => engine "disk I/O error" 266 "Error reading from disk"
  | noSample => engine "disk I/O error" 1802 "Error invoking fstat to get file metadata"
  | locked => engine "database is locked" 5 "The database file is locked"
  | cannotLock => engine "disk I/O error" 3850 "I/O error in the advisory file locking layer"
  | noJournal => engine "unable to open database file" 14 cannotOpenMeaning
  | cannotUndo =>
    engine "attempt to write a readonly database" 776
      "Database has hot journal that must be rolled back (requires write access)"
  | cannotRemove =>
    engine "disk I/O error" 2570 "I/O error within xDelete of a VFS object"
  | cannotFlush =>
    engine "disk I/O error" 1034 "Error flushing data to persistent storage (fsync)"
  | readOnly =>
    engine "attempt to write a readonly database" 8 "Attempt to write a readonly database"
  | notDatabase => engine "file is not a database" 26 "File opened that is not a database file"
  | unknownFormat => engine "unsupported file format" 1 "SQL error or missing database"
  | damaged =>
    engine "database disk image is malformed" 11 "The database disk image is malformed"

def message (f : OpenFault) : String := ": ".intercalate ("Storage error" :: f.causes)

end OpenFault

end CimStore

import CimStore.Disk.Path
import CimStore.Store.Database

/-!
# The disk

A `Disk` holds folders and files by their places: the names from the root on. A path leads from
the root or the working folder along its names to a place (`Disk.place`). Every name but the last
must lead to a folder, so a way up out of a folder that does not exist leads nowhere.

Files hold texts or databases. What an operation does to the disk before it fails stays done.
-/

namespace CimStore

/-- What is at a place. -/
inductive Disk.Entry
  | folder
  /-- A device that reads as empty and swallows what is written to it. -/
  | sink
  | text (content : String)
  | database (content : Database)
  /-- A file that holds neither. -/
  | binary
deriving DecidableEq

/-- Why a file or folder cannot be read, written or made. -/
inductive FileFault
  | missing
  /-- There is something at the place already. -/
  | present
  /-- A name on the way leads to a file, not to a folder. -/
  | underFile
  | isFolder
  | nameTooLong
  | nulInName
  | notText
deriving DecidableEq, Repr

def FileFault.message : FileFault → String
  | missing => "No such file or directory (os error 2)"
  | present => "File exists (os error 17)"
  | underFile => "Not a directory (os error 20)"
  | isFolder => "Is a directory (os error 21)"
  | nameTooLong => "File name too long (os error 36)"
  | nulInName => "file name contained an unexpected NUL byte"
  | notText => "stream did not contain valid UTF-8"

/-- Where something is: the names from the root on. -/
abbrev Place := List Name

structure Disk where
  entries : SortedMap Place Disk.Entry := SortedMap.empty
  /-- The working folder. -/
  here : Place := []
deriving DecidableEq

namespace Disk

/-- What is at a place. The root is a folder. -/
def get? (d : Disk) (p : Place) : Option Entry :=
  if p.isEmpty then some .folder else d.entries.get? p

def put (d : Disk) (p : Place) (e : Entry) : Disk := { d with entries := d.entries.insert p e }

def isFolder (d : Disk) (p : Place) : Bool :=
  match d.get? p with
  | some .folder => true
  | _ => false

/-! ## Finding -/

/-- The place of a name in the folder at a place. -/
def step (d : Disk) (p : Place) (n : Name) : Except FileFault Place :=
  match d.get? p with
  | none => .error .missing
  | some .folder =>
    if n = Name.here then .ok p
    else if n = Name.up then .ok p.dropLast
    else if Name.maxLength < n.length then .error .nameTooLong
    else .ok (p ++ [n])
  | some _ => .error .underFile

/-- The place that some names lead to from where a path starts. -/
def follow (d : Disk) (path : Path) (names : List Name) : Except FileFault Place :=
  if path.hasNul then .error .nulInName
  else if path.isEmpty then .error .missing
  else if path.isTooLong then .error .nameTooLong
  else names.foldlM d.step (if path.fromRoot then [] else d.here)

/-- The place that a path leads to; there need be nothing. -/
def place (d : Disk) (path : Path) : Except FileFault Place := d.follow path path.names

/-- What a path leads to. -/
def find (d : Disk) (path : Path) : Except FileFault Entry := do
  match d.get? (← d.place path) with
  | none => .error .missing
  | some .folder => .ok .folder
  | some e => if path.endsInSlash then .error .underFile else .ok e

def contains (d : Disk) (path : Path) : Bool := (d.find path).isOk

/-! ## Texts -/

/-- The text in a file. -/
def readText (d : Disk) (path : Path) : Except FileFault String := do
  match ← d.find path with
  | .folder => .error .isFolder
  | .sink => .ok ""
  | .text t => .ok t
  | .database _ | .binary => .error .notText

/-- Writes a text to a file, in place of what it held. A path that ends in a slash leads to no file,
whatever its last name is. -/
def writeText (d : Disk) (path : Path) (t : String) : Except FileFault Disk := do
  if path.endsInSlash then
    let _ ← d.follow path (path.names.dropLast ++ [Name.here])
    throw .isFolder
  else
    let p ← d.place path
    match d.get? p with
    | some .folder => throw .isFolder
    | some .sink => return d
    | _ => return d.put p (.text t)

/-! ## Folders -/

/-- Makes a folder, if there is none, in a folder that there is. -/
def makeFolder (d : Disk) (path : Path) : Except FileFault Disk := do
  let p ← d.place path
  match d.get? p with
  | none => .ok (d.put p .folder)
  | some .folder => .ok d
  | some _ => .error .present

/-- Makes the first of these folders, each of which is to be in the next one. The next one is made
only if the first turns out to lack it. -/
def makeInward (d : Disk) : List Path → Except FileFault Unit × Disk
  | [] => (.ok (), d)
  | path :: outer =>
    match d.makeFolder path with
    | .ok d => (.ok (), d)
    | .error .missing =>
      match d.makeInward outer with
      | (.error fault, d) => (.error fault, d)
      | (.ok (), d) =>
        match d.makeFolder path with
        | .ok d => (.ok (), d)
        | .error fault => (.error fault, d)
    | .error fault => (.error fault, d)

/-- Makes the folder that a path leads to, and those on the way that it lacks. -/
def makeFolders (d : Disk) (path : Path) : Except FileFault Unit × Disk :=
  d.makeInward path.stages

/-- Makes the folder that a path needs to be in. -/
def makeRoom (d : Disk) (path : Path) : Except FileFault Unit × Disk :=
  match path.parent? with
  | none => (.ok (), d)
  | some folder =>
    if folder.isEmpty || d.contains folder then (.ok (), d) else d.makeFolders folder

/-! ## Disks to start from -/

/-- The place of names that are texts. -/
def placeOf (names : List String) : Place := names.map Text.bytes

/-- A disk with nothing but the device that swallows everything. -/
def devices : Disk :=
  (({} : Disk).put (placeOf ["dev"]) .folder).put (placeOf ["dev", "null"]) .sink

/-- A disk with the folders of a bare system and an empty working folder. -/
def bare : Disk :=
  let folders := ["bin", "boot", "etc", "home", "lib", "media", "mnt", "opt", "proc", "root", "run",
    "sbin", "srv", "sys", "tmp", "usr", "var"].map ([·]) ++ [["tmp", "work"]]
  let d := folders.foldl (fun d names => d.put (placeOf names) .folder) devices
  { d with here := placeOf ["tmp", "work"] }

/-- Puts a text at a path, and the folders that it leads through. -/
def addText (d : Disk) (file : String × String) : Disk :=
  let path := Path.ofText file.1
  let d := (d.makeRoom path).2
  (d.writeText path file.2).toOption.getD d

/-- A bare system with these texts by their paths. -/
def ofTexts (files : List (String × String)) : Disk := files.foldl addText bare

end Disk

end CimStore

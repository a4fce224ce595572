import CimStore.Cli.Run
import CimStore.Store.Image

/-!
# The program

The outer layer: it fetches the files that a command line names, runs the command on them, writes
back what has changed and prints. A database stands in its file as an image.
-/

namespace CimStore.Cli

/-- A place as a path from the root. -/
def pathOf (p : Place) : String := "/" ++ "/".intercalate (p.map Text.ofBytes)

/-- What the bytes of a file are: a database, a text or neither. -/
def entryOf (bytes : ByteArray) : Disk.Entry :=
  match String.fromUTF8? bytes with
  | some t => ((Image.read? t).map Disk.Entry.database).getD (.text t)
  | none => .binary

/-- What is at a place that leads through folders. -/
def fetch? (p : Place) : IO (Option Disk.Entry) := do
  try
    return some (entryOf (← IO.FS.readBinFile (pathOf p)))
  catch
    | .inappropriateType .. => return some .folder
    | .noFileOrDirectory .. => return none
    | e => throw e

/-- A disk with what is at a place, if it is in a folder. -/
def fetchAt (d : Disk) (p : Place) : IO Disk := do
  if (d.get? p).isSome || !d.isFolder p.dropLast then return d
  match ← fetch? p with
  | some e => return d.put p e
  | none => return d

/-- A disk with what is at a place and on the way to it. -/
def fetchTo (d : Disk) (p : Place) : IO Disk :=
  (List.range p.length).foldlM (fun d n => fetchAt d (p.take (n + 1))) d

/-- A disk with what a path leads to and what is on the way to it. -/
def fetchAlong (d : Disk) (text : String) : IO Disk :=
  (Path.ofText text).stages.reverse.foldlM (fun d path =>
    match d.place path with
    | .ok p => fetchAt d p
    | .error _ => return d) d

/-- A disk with the file of a database, those beside it and what is on the way to them. -/
def fetchDatabase (d : Disk) (text : String) : IO Disk := do
  let d ← fetchAlong d text
  match Address.parse text with
  | .ok a =>
    match d.databasePlace a.file with
    | some p =>
      let d ← (a.sample?.map Text.ofBytes).elim (pure d) (fetchAlong d)
      let endings := [Disk.journalEnding, Disk.logEnding, Disk.lockEnding]
      (p :: endings.map (Disk.beside p)).foldlM fetchTo d
    | none => return d
  | .error _ => return d

/-- The disk as far as a command can see it. -/
def fetchFor (i : Invocation) : IO Disk := do
  let here := (Path.ofText (← IO.currentDir).toString).names
  let d ← fetchTo ({ Disk.devices with here }) here
  let d ← fetchAlong d i.config
  let config := ((d.loadConfig i.config).toOption.bind id).getD {}
  let d ← fetchDatabase d (i.database.getD config.databasePath)
  match i.command with
  | .importFile file _ => fetchAlong d file
  | _ => return d

/-- Writes an entry to its place. -/
def store (p : Place) : Disk.Entry → IO Unit
  | .folder => IO.FS.createDirAll (pathOf p)
  | .text t => IO.FS.writeFile (pathOf p) t
  | .database db => IO.FS.writeFile (pathOf p) (Image.render db)
  | .binary | .sink => return

/-- Writes the entries that a run has changed, and removes those that it has removed. -/
def storeChanges (before after : Disk) : IO Unit := do
  for (p, _) in before.entries.entries do
    unless after.entries.contains p do IO.FS.removeFile (pathOf p)
  for (p, e) in after.entries.entries do
    unless before.entries.get? p = some e do store p e

def print (outcome : Outcome) : IO UInt32 := do
  outcome.out.forM IO.println
  outcome.err.forM IO.eprintln
  return outcome.code.toUInt32

end CimStore.Cli

open CimStore CimStore.Cli in
/-- Runs the program with the words of its command line. -/
def main (args : List String) : IO UInt32 := do
  match Request.parse? args with
  | none =>
    IO.eprintln "usage: cimdb [-v] [-d DATABASE] [--config FILE] COMMAND"
    return 2
  | some .version => print (run args {}).1
  | some (.run i) =>
    let before ← fetchFor i
    let (outcome, after) := run args before
    storeChanges before after
    print outcome

import CimStore.Config
import CimStore.Disk

/-!
# Settings on a disk

The settings are in a text file: `Disk.loadConfig` reads them and `Disk.writeConfig` writes them.
-/

namespace CimStore

/-- Why settings cannot be read or written. -/
inductive ConfigFault
  | malformed
  /-- There is something under the path. -/
  | present (path : String)
  | file (fault : FileFault)
deriving DecidableEq, Repr

def ConfigFault.message : ConfigFault → String
  | malformed => "TOML parse error"
  | present path => "config already exists at " ++ path ++ " (use --force to overwrite)"
  | file fault => fault.message

namespace Disk

/-- The settings in the file under a path; nothing if the path leads nowhere. -/
def loadConfig (d : Disk) (path : String) : Except ConfigFault (Option Config) :=
  if !d.contains (Path.ofText path) then .ok none
  else
    match d.readText (Path.ofText path) with
    | .error fault => .error (.file fault)
    | .ok t =>
      match Config.read? t with
      | some c => .ok (some c)
      | none => .error .malformed

/-- Writes settings to a file, over one that is there only if `force` is set. -/
def writeConfig (d : Disk) (path : String) (c : Config) (force : Bool) :
    Except ConfigFault Disk :=
  if d.contains (Path.ofText path) && !force then .error (.present path)
  else
    match d.writeText (Path.ofText path) c.render with
    | .ok d => .ok d
    | .error fault => .error (.file fault)

end Disk

end CimStore

import CimStore.Text.Bytes
import CimStore.Text.Cut

/-!
# Paths

A `Path` is a way to a file as it is written: names with slashes between them, from the root or
from the working folder. What it leads to depends on the disk; this module only takes it apart.

* `names` are the names on the way, and `isTooLong` says whether it is more than a disk can take.
* `parent?` is the way to the folder that the last name is in, and `stages` are all the ways that
  it gives one after the other.
* `stem?` is the last name without its ending.
-/

namespace CimStore

/-- A name in a folder: bytes without a slash. -/
abbrev Name := List UInt8

namespace Name

/-- The name of a folder in itself. -/
def here : Name := Text.bytes "."

/-- The name in a folder of the folder that it is in. -/
def up : Name := Text.bytes ".."

/-- The most bytes that a name may have. -/
def maxLength : Nat := 255

/-- The length in bytes of names with a slash in front of each. -/
def slashedLength : List Name → Nat
  | [] => 0
  | n :: ns => 1 + n.length + slashedLength ns

end Name

/-- A way to a file as it is written, in bytes. -/
structure Path where
  bytes : List UInt8
deriving DecidableEq, Repr

namespace Path

def slash : UInt8 := 0x2F

/-- The path that a text gives. -/
def ofText (text : String) : Path := ⟨Text.bytes text⟩

/-- Whether the path is empty, and so leads nowhere. -/
def isEmpty (p : Path) : Bool := p.bytes.isEmpty

/-- Whether it starts at the root. -/
def fromRoot (p : Path) : Bool := p.bytes.head? == some slash

/-- Whether a slash ends it, so that only a folder will do. -/
def endsInSlash (p : Path) : Bool := p.bytes.getLast? == some slash

/-- The names on the way. Several slashes in a row count as one. -/
def names (p : Path) : List Name := (Text.splitAt slash p.bytes).filter (· ≠ [])

/-- The least length in bytes of a path that is too long for every disk. -/
def leastTooLong : Nat := 4096

/-- Whether a path is too long, with all the slashes in it. -/
def isTooLong (p : Path) : Bool := leastTooLong ≤ p.bytes.length

/-- Whether a name has a NUL in it, which no file has. -/
def hasNul (p : Path) : Bool := p.bytes.contains 0

/-! ## The way to a path -/

/-- How many bytes at the start of a path say where it starts: the slash of the root, or the name of
a folder in itself. -/
def headLength : List UInt8 → Nat
  | [] => 0
  | b :: bs =>
    if b = slash || ([b] = Name.here && (bs = [] || bs.head? = some slash)) then 1 else 0

/-- The parts of a path without those in front that lead nowhere else. -/
def trimmed (parts : List Name) : List Name :=
  parts.dropWhile fun part => part = [] || part = Name.here

/-- The way to the folder that the last name is in; it is empty if that is the working folder.
Nothing for the root and for the empty path. What leads nowhere else does not count behind the last
name and in front of it; farther inside it stays. -/
def parent? (p : Path) : Option Path :=
  let size := headLength p.bytes
  let start := p.bytes.take size
  match trimmed (Text.splitAt slash (p.bytes.drop size)).reverse with
  | _ :: outer => some ⟨start ++ [slash].intercalate (trimmed outer).reverse⟩
  | [] => if start = Name.here then some ⟨[]⟩ else none

/-- At most `fuel` ways from a path outwards, each to the folder of the one before; an empty path is
none of them. -/
def waysOut : Nat → Path → List Path
  | 0, _ => []
  | fuel + 1, p =>
    if p.isEmpty then [] else p :: (p.parent?.map (waysOut fuel)).getD []

/-- A path and the ways to the folders that it leads through, from the inside out. -/
def stages (p : Path) : List Path := waysOut (p.bytes.length + 1) p

/-! ## Names in a path -/

/-- The last name of a path that a text gives; nothing if that is a way up or no name at all. -/
def lastName? (text : String) : Option (List Char) := do
  let parts := (Text.splitAt '/' text.toList).filter fun part => part ≠ [] && part ≠ ['.']
  let part ← parts.getLast?
  if part = ['.', '.'] then none else some part

/-- The name of a file without what follows its last point. A point in front does not count. -/
def stem? (text : String) : Option String := do
  let part ← lastName? text
  match Text.beforeFirst? '.' part.reverse with
  | none => some (String.ofList part)
  | some ending =>
    let stem := part.take (part.length - ending.length - 1)
    some (String.ofList (if stem.isEmpty then part else stem))

end Path

end CimStore

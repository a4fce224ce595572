import CimStore.Text.Bytes
import CimStore.Text.Cut
import CimStore.Text.Hex

/-!
# Addresses of databases

A database is named by a text: the path of a file, or an address that starts with `file:` and may
have options behind a question mark, as in `file:grid.db?mode=ro`. `Address.parse` takes such a
text apart.

In an address, `%` and two hexadecimal digits stand for a byte, a number sign ends the address, and
an authority in front of the path may only be the local machine. The options `mode`, `cache` and
`vfs` are checked one after the other; all others are free, and of these only `immutable`, `nolock`
and `modeof` matter.
-/

namespace CimStore

/-- What may be done with a database. -/
inductive AccessMode
  | readOnly
  /-- It may be changed, and there must be a file. -/
  | existing
  | readWrite
  /-- It is kept in memory, with no file. -/
  | memory
deriving DecidableEq, Repr

namespace AccessMode

/-- The modes by their names in an address. -/
def named : List (String × AccessMode) :=
  [("ro", readOnly), ("rw", existing), ("rwc", readWrite), ("memory", memory)]

/-- How much a mode asks for, and how much it lets a later option ask for. -/
def rank : AccessMode → Nat
  | readOnly => 0
  | existing => 1
  | readWrite => 2
  | memory => 3

/-- Whether an option may change one mode into another: to one that asks for more only where memory
is concerned. -/
def allows (present next : AccessMode) : Bool :=
  next = memory || next.rank ≤ present.rank

end AccessMode

/-- Why a text is no address of a database. -/
inductive AddressFault
  | foreignAuthority (authority : String)
  /-- The named option has a value that it does not know. -/
  | unknownMode (option value : String)
  /-- The mode asks for more than the mode in front of it. -/
  | modeNotAllowed (value : String)
  | unknownVfs (name : String)
deriving DecidableEq, Repr

namespace AddressFault

def message : AddressFault → String
  | foreignAuthority authority => "invalid uri authority: " ++ authority
  | unknownMode option value => "no such " ++ option ++ " mode: " ++ value
  | modeNotAllowed value => "access mode not allowed: " ++ value
  | unknownVfs name => "no such vfs: " ++ name

end AddressFault

/-- A database as its address describes it. -/
structure Address where
  /-- The path of the file, in bytes. -/
  file : List UInt8
  mode : AccessMode := .readWrite
  /-- The name of the layer that reads and writes files. -/
  vfs : List UInt8 := Text.bytes "unix"
  /-- Whether the file is taken to be one that nobody changes. -/
  immutable : Bool := false
  /-- Whether others are kept from using the file. -/
  locks : Bool := true
  /-- The path of a file whose access rights a new file is to have. -/
  sample? : Option (List UInt8) := none
deriving DecidableEq, Repr

namespace Address

/-! ## Bytes of an address -/

/-- The value of a hexadecimal digit. -/
def digit? (b : UInt8) : Option Nat := Text.hexDigit? (Char.ofUInt8 b)

/-- The byte that the first two of these bytes give as digits. -/
def octet? : List UInt8 → Option UInt8
  | a :: b :: _ => do return UInt8.ofNat (16 * (← digit? a) + (← digit? b))
  | _ => none

def percentSign : UInt8 := 0x25

/-- A part of an address with the bytes that it stands for. A NUL ends it. -/
def decode : List UInt8 → List UInt8
  | [] => []
  | b :: bs =>
    match if b = percentSign then octet? bs else none with
    | some octet => if octet = 0 then [] else octet :: decode (bs.drop 2)
    | none => b :: decode bs
termination_by bs => bs.length
decreasing_by all_goals simp only [List.length_drop, List.length_cons]; omega

/-- What stands before the first `c`, and what stands behind it; all and nothing without a `c`. -/
def cutAt (c : UInt8) (bs : List UInt8) : List UInt8 × List UInt8 :=
  (bs.takeWhile (· ≠ c), (bs.dropWhile (· ≠ c)).drop 1)

/-! ## Options -/

/-- An option as it is given. -/
structure Setting where
  name : List UInt8
  value : List UInt8
deriving DecidableEq, Repr

/-- The option in a part of an address between two ampersands; nothing without a name. -/
def setting? (part : List UInt8) : Option Setting :=
  let (name, value) := cutAt 0x3D part
  if decode name = [] then none else some ⟨decode name, decode value⟩

def settings (bs : List UInt8) : List Setting := (Text.splitAt 0x26 bs).filterMap setting?

/-- The least number that the value of an option cannot be; from there on it counts as 0. -/
def numberLimit : Nat := 0x80000000

/-- The number that digits to a base write. -/
def number (base : Nat) (digits : List UInt8) : Nat :=
  digits.foldl (fun n b => base * n + (digit? b).getD 0) 0

/-- The number at the start of the value of an option, hexadecimal behind `0x`. It is 0 if it
reaches the limit. -/
def leadingNumber (value : List UInt8) : Nat :=
  let decimal := value.takeWhile fun b => (digit? b).any (· < 10)
  let hexadecimal := (value.drop 2).takeWhile fun b => (digit? b).isSome
  let isHexadecimal := ["0x", "0X"].any (Text.bytes · = value.take 2) && hexadecimal ≠ []
  let n := if isHexadecimal then number 16 hexadecimal else number 10 decimal
  if n < numberLimit then n else 0

/-- Whether the value of an option that is on or off says "on": a word for it, or a number whose
lowest byte is not 0. -/
def isOn (value : List UInt8) : Bool :=
  let text := (Text.ofBytes value).toList.map Char.toLower
  ["on", "yes", "true"].any (·.toList = text) || leadingNumber value % 256 ≠ 0

/-- The layers that there are. -/
def knownVfs : List String := ["unix", "unix-none", "unix-dotfile", "unix-excl", "memdb"]

/-- Applies an option to an address. -/
def apply (a : Address) (s : Setting) : Except AddressFault Address :=
  if s.name = Text.bytes "vfs" then .ok { a with vfs := s.value }
  else if s.name = Text.bytes "cache" then
    if ["shared", "private"].any (Text.bytes · = s.value) then .ok a
    else .error (.unknownMode "cache" (Text.ofBytes s.value))
  else if s.name = Text.bytes "mode" then
    match AccessMode.named.find? (Text.bytes ·.1 = s.value) with
    | none => .error (.unknownMode "access" (Text.ofBytes s.value))
    | some (name, mode) =>
      if a.mode.allows mode then .ok { a with mode := mode } else .error (.modeNotAllowed name)
  else .ok a

/-! ## Addresses -/

/-- What follows the authority of an address, which stands behind two slashes. -/
def afterAuthority (bs : List UInt8) : Except AddressFault (List UInt8) :=
  if bs.take 2 = Text.bytes "//" then
    let authority := (bs.drop 2).takeWhile (· ≠ 0x2F)
    if authority = [] || authority = Text.bytes "localhost" then
      .ok (bs.drop (2 + authority.length))
    else .error (.foreignAuthority (Text.ofBytes authority))
  else .ok bs

/-- The address in what follows `file:`. -/
def parseRest (bs : List UInt8) : Except AddressFault Address := do
  let (file, options) := cutAt 0x3F ((← afterAuthority bs).takeWhile (· ≠ 0x23))
  let settings := settings options
  let a ← settings.foldlM apply { file := decode file }
  if knownVfs.any (Text.bytes · = a.vfs) then
    let value? (name : String) := (settings.find? (·.name = Text.bytes name)).map (·.value)
    let isSet (name : String) := (value? name).any isOn
    return { a with
      immutable := isSet "immutable"
      locks := !isSet "nolock"
      sample? := value? "modeof" }
  else throw (.unknownVfs (Text.ofBytes a.vfs))

/-- The database that a text names. -/
def parse (text : String) : Except AddressFault Address :=
  let bs := Text.bytes text
  if bs.take 5 = Text.bytes "file:" then parseRest (bs.drop 5) else .ok { file := bs }

/-- Whether the address names no file and the database is not to be kept in memory by its mode. -/
def isNameless (a : Address) : Bool := a.file = [] || a.file = Text.bytes ":memory:"

/-- Whether the database is gone when it is closed. -/
def isTransient (a : Address) : Bool :=
  a.mode = .memory || a.isNameless || a.vfs = Text.bytes "memdb"

/-- Whether locks are files. -/
def hasLockFiles (a : Address) : Bool := a.vfs = Text.bytes "unix-dotfile"

/-- Whether there is a file that says that the database is in use. -/
def keepsLock (a : Address) : Bool := a.locks && a.hasLockFiles

/-- Whether the database may have a log of changes, which others can see. -/
def keepsLog (a : Address) : Bool :=
  a.locks && ["unix", "unix-excl"].any (Text.bytes · = a.vfs)

/-- Whether the database must stay as it is. -/
def isReadOnly (a : Address) : Bool :=
  a.mode ≠ .memory && (a.mode = .readOnly || (a.immutable && !a.isNameless))

end Address

end CimStore

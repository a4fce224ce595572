import CimStore.Pattern.Class
import CimStore.Text.Alphanumeric

/-!
# Patterns

The value of a field in a log filter may be a pattern. `Pattern.fault?` says why a text is none that
can be used: it is malformed, or asks for the boundaries of words of any script, which the matching
of patterns cannot do.

A pattern is read sign by sign with the list of the groups that are open. Flags hold to the end of
the group that they are set in, and beyond a bar as well.
-/

namespace CimStore.Pattern

/-- Why a text is no pattern that can be used. -/
inductive Fault
  | malformed
  /-- It finds the boundaries of words of any script. -/
  | findsWords
deriving DecidableEq, Repr

def Fault.message : Fault → String
  | malformed => "error building NFA"
  | findsWords =>
    "unsupported regex feature for DFAs: cannot build DFAs for regexes with Unicode word " ++
      "boundaries; switch to ASCII word boundaries, or heuristically enable Unicode word " ++
      "boundaries or use a different regex engine"

/-- What has been read of a pattern. -/
structure Reading where
  level : Level := {}
  flags : Flags := {}
  /-- What had been read, and the flags that held, in front of each open group, last one first. -/
  outer : List (Level × Flags) := []
  /-- The names of the groups. -/
  names : List (List Char) := []
deriving DecidableEq, Repr

namespace Reading

def push (r : Reading) (p : Part) : Reading := { r with level := r.level.push p }

/-! ## Groups -/

/-- After the opening of a group in which some flags hold. -/
def enter (r : Reading) (flags : Flags) : Reading :=
  { r with level := {}, flags := flags, outer := (r.level, r.flags) :: r.outer }

/-- After the closing of a group. -/
def leave? (r : Reading) : Option Reading :=
  match r.outer with
  | [] => none
  | (level, flags) :: outer =>
    some { r with level := level.push (Part.above [r.level.whole]), flags, outer }

/-- Whether a group may have this name. -/
def isName : List Char → Bool
  | [] => false
  | c :: cs =>
    (c = '_' || Text.isLetter c) &&
      cs.all fun c => ['_', '.', '[', ']'].contains c || Text.isAlphanumeric c

/-- Opens a group behind the angle bracket in front of its name. -/
def openNamed (r : Reading) : Scan Reading := fun cs =>
  let name := cs.takeWhile (· ≠ '>')
  match cs.drop name.length with
  | '>' :: cs =>
    if isName name && !r.names.contains name then
      some ({ r.enter r.flags with names := name :: r.names }, cs)
    else none
  | _ => none

/-- Whether a text sets flags: letters of flags and a minus sign, none of them twice, the minus
sign not at the end. -/
def isSetting (cs : List Char) : Bool :=
  cs.all ['i', 'm', 's', 'U', 'u', 'R', 'x', '-'].contains && cs.eraseDups = cs &&
    cs.getLast? ≠ some '-'

/-- Sets flags behind a question mark, up to the end of the group that is open or, behind a colon,
for a new group. -/
def setFlags (r : Reading) : Scan Reading := fun cs =>
  let setting := cs.takeWhile fun c => c ≠ ':' && c ≠ ')'
  if isSetting setting then
    match cs.drop setting.length with
    | ':' :: cs => some (r.enter (r.flags.set setting), cs)
    | ')' :: cs =>
      if setting.isEmpty then none
      else some ({ r.push { isSetting := true } with flags := r.flags.set setting }, cs)
    | _ => none
  else none

/-- Opens a group, or sets flags, behind an opening bracket. -/
def openGroup (r : Reading) : Scan Reading := fun cs =>
  match skip r.flags cs with
  | '?' :: 'P' :: '<' :: cs | '?' :: '<' :: cs => r.openNamed cs
  | '?' :: cs => r.setFlags cs
  | cs => some (r.enter r.flags, cs)

/-! ## Repetitions -/

/-- The rest after the sign that makes a repetition as short as possible. -/
def skipLazy : List Char → List Char
  | '?' :: cs => cs
  | cs => cs

/-- Repeats what has been read last, which must not be a setting of flags. -/
def repeatLast? (r : Reading) (never : Bool) : Option Reading :=
  match r.level.items with
  | [] => none
  | p :: ps =>
    if p.isSetting then none
    else some { r with level := { r.level with items := p.repeated never :: ps } }

/-- The least number that is too large for a count. -/
def countLimit : Nat := 0x100000000

/-- A count with blanks around it. -/
def count (f : Flags) : Scan Nat := fun cs =>
  let cs := cs.dropWhile Text.isBlank
  let (ds, cs) := row f isDigit cs.length cs
  if !ds.isEmpty && ofDigits ds < countLimit then some (ofDigits ds, cs.dropWhile Text.isBlank)
  else none

/-- The most times that something is repeated, behind the least number of times and up to the
closing brace; nothing in place of it if there is no limit. -/
def greatestCount (f : Flags) (least : Nat) : Scan (Option Nat)
  | '\x7d' :: cs => some (some least, cs)
  | ',' :: cs =>
    match skip f cs with
    | '\x7d' :: cs => some (none, cs)
    | cs => do
      match ← count f cs with
      | (greatest, '\x7d' :: cs) =>
        if least ≤ greatest then some (some greatest, cs) else none
      | _ => none
  | _ => none

/-- Repeats what has been read last as often as the numbers behind an opening brace say. -/
def repeatCounted (r : Reading) : Scan Reading := fun cs => do
  let (least, cs) ← count r.flags (skip r.flags cs)
  let (greatest?, cs) ← greatestCount r.flags least cs
  return (← r.repeatLast? (greatest? = some 0), skipLazy (skip r.flags cs))

/-! ## All of a pattern -/

/-- Reads what starts with the character `c`. -/
def next (r : Reading) (c : Char) (cs : List Char) : Option (Reading × List Char) :=
  if c = '(' then r.openGroup cs
  else if c = ')' then r.leave?.map (·, cs)
  else if c = '|' then some ({ r with level := r.level.addBranch }, cs)
  else if c = '[' then (bracketed r.flags cs).map fun (p, cs) => (r.push p, cs)
  else if ['?', '*', '+'].contains c then (r.repeatLast? false).map (·, skipLazy cs)
  else if c = '\x7b' then r.repeatCounted cs
  else do
    let (sign, cs) ← sign r.flags (c :: cs)
    return (r.push (← sign.part? r.flags), cs)

/-- Reads the rest of a pattern, in `fuel` steps at most. -/
def rest? : Nat → Reading → List Char → Option Part
  | 0, _, _ => none
  | fuel + 1, r, cs =>
    match skip r.flags cs with
    | [] => if r.outer.isEmpty then some r.level.whole else none
    | c :: cs => do
      let (r, cs) ← r.next c cs
      rest? fuel r cs

end Reading

/-- The pattern that a text is, as one part. -/
def part? (text : List Char) : Option Part := Reading.rest? (text.length + 1) {} text

/-- How many levels a pattern may have. -/
def depthLimit : Nat := 250

/-- Why a text is no pattern that can be used; nothing if it is one. -/
def fault? (text : List Char) : Option Fault :=
  match part? text with
  | none => some .malformed
  | some p =>
    if depthLimit < p.depth then some .malformed
    else if p.findsWords then some .findsWords
    else none

end CimStore.Pattern

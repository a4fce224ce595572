import CimStore.Pattern.Sign

/-!
# Classes in brackets

A class stands between square brackets and says which characters are meant: single ones, ranges of
them, classes with names, and further classes in brackets. Two of the same sign (`&&`, `--`, `~~`)
between parts of a class make a new class of those in front and those behind.

`bracketed` reads a class with an explicit list of the levels that are open.
-/

namespace CimStore.Pattern

/-- The names of classes of ASCII characters. -/
def classNames : List String :=
  ["alnum", "alpha", "ascii", "blank", "cntrl", "digit", "graph", "lower", "print", "punct",
    "space", "upper", "word", "xdigit"]

/-- A class with a name, behind its opening bracket: whether it is negated. What does not have the
form `[:name:]` is another class in brackets. -/
def namedClass? : Scan Bool
  | ':' :: cs =>
    let isNegated := cs.head? = some '^'
    let cs := if isNegated then cs.drop 1 else cs
    match cs.dropWhile (· ≠ ':') with
    | ':' :: ']' :: rest =>
      if classNames.any (·.toList = cs.takeWhile (· ≠ ':')) then some (isNegated, rest) else none
    | _ => none
  | _ => none

/-- The start of a class behind its opening bracket. Minus signs, and a closing bracket that is the
first of all, stand for themselves. -/
def openClass (f : Flags) : Scan Level := fun cs =>
  let cs := skip f cs
  let isNegated := cs.head? = some '^'
  let cs := if isNegated then skip f (cs.drop 1) else cs
  let (dashes, cs) := row f (· = '-') cs.length cs
  let (brackets, cs) := if dashes.isEmpty then row f (· = ']') 1 cs else ([], cs)
  let first := dashes ++ brackets
  if f.allowsBrackets isNegated && first.all (f.allowsCharacter true) then
    some ({ items := first.map fun _ => {} }, cs)
  else none

/-- Whether a sign may stand in a class on its own. -/
def Sign.isMember (f : Flags) : Sign → Bool
  | character c _ => f.allowsCharacter true c
  | property isNegated => f.allowsProperty isNegated
  | any | edge | boundary => false

/-- Whether two signs may be the ends of a range. -/
def Sign.isRange (f : Flags) : Sign → Sign → Bool
  | character c _, character d _ =>
    c ≤ d && f.allowsCharacter true c && f.allowsCharacter true d
  | _, _ => false

/-- The character that comes next as far as a minus sign is concerned. Looking ahead passes over
blanks and one number sign, but not over the comment that it starts. -/
def ahead? (f : Flags) (cs : List Char) : Option Char :=
  if !f.spaced then cs.head?
  else
    match cs.dropWhile Text.isBlank with
    | '#' :: cs => (cs.dropWhile Text.isBlank).head?
    | cs => cs.head?

/-- The rest after a member of a class: a character, a property or a range. A minus sign in front
of a closing bracket or of another minus sign makes no range. -/
def member? (f : Flags) (cs : List Char) : Option (List Char) := do
  let (first, cs) ← character f cs
  match skip f cs with
  | '-' :: rest =>
    if [some ']', some '-'].contains (ahead? f rest) then
      if first.isMember f then some ('-' :: rest) else none
    else
      let (last, cs) ← character f (skip f rest)
      if Sign.isRange f first last then some cs else none
  | cs => if first.isMember f then some cs else none

/-- The rest of a class, of which `level` has been read, and of those in `outer` that it is in. -/
def classTail (f : Flags) : Nat → Level → List Level → Scan Part
  | 0, _, _, _ => none
  | fuel + 1, level, outer, cs =>
    match skip f cs with
    | [] => none
    | ']' :: cs =>
      let part := Part.above [level.whole]
      match outer with
      | [] => some (part, cs)
      | up :: outer => classTail f fuel (up.push part) outer cs
    | '[' :: cs =>
      match namedClass? cs with
      | some (isNegated, cs) =>
        if f.allowsNamed isNegated then classTail f fuel (level.push {}) outer cs else none
      | none => do
        let (inner, cs) ← openClass f cs
        classTail f fuel inner (level :: outer) cs
    | c :: cs =>
      if ['&', '-', '~'].contains c && cs.head? = some c then
        classTail f fuel level.closeBranches outer (cs.drop 1)
      else do
        let cs ← member? f (c :: cs)
        classTail f fuel (level.push {}) outer cs

/-- A class behind its opening bracket. -/
def bracketed (f : Flags) : Scan Part := fun cs => do
  let (level, cs) ← openClass f cs
  classTail f (cs.length + 1) level [] cs

end CimStore.Pattern

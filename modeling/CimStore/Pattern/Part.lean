/-!
# Parts of a pattern

A pattern is a regular expression for the value of a field. Nothing is looked for with it here: the
question is only whether it can be used. So a `Part` of a pattern keeps what matters for that, how
deep it nests and whether it finds the boundaries of words.

* `Part.join` puts parts together, one level above them unless there is only one.
* `Flags` say what holds at a place in a pattern, and what may stand there for that reason. There
  are no tables of properties of characters, so as long as a pattern is about characters it has no
  classes such as that of the digits and no letters in any case. A pattern about bytes matches
  nothing but ASCII with a single byte.
-/

namespace CimStore.Pattern

/-! ## Parts -/

/-- What is kept of a part of a pattern. -/
structure Part where
  /-- How many levels of groups, repetitions, classes, sequences and choices there are in it. -/
  depth : Nat := 0
  /-- Whether it finds the boundaries of words of any script. -/
  findsWords : Bool := false
  /-- Whether it stands for nothing and only sets flags. -/
  isSetting : Bool := false
deriving DecidableEq, Repr

namespace Part

/-- The level above some parts. -/
def above (ps : List Part) : Part where
  depth := 1 + ps.foldr (fun p depth => max p.depth depth) 0
  findsWords := ps.any (·.findsWords)

/-- Some parts as one. A single one stays as it is. -/
def join : List Part → Part
  | [] => {}
  | [p] => p
  | ps => above ps

/-- A part that is repeated, `never` if it must be there no times. -/
def repeated (p : Part) (never : Bool) : Part :=
  { above [p] with findsWords := p.findsWords && !never }

end Part

/-- What has been read between two brackets. -/
structure Level where
  /-- What follows the last sign that separates branches, last one first. -/
  items : List Part := []
  branches : List Part := []
deriving DecidableEq, Repr

namespace Level

def push (l : Level) (p : Part) : Level := { l with items := p :: l.items }

/-- All that has been read as one part. -/
def whole (l : Level) : Part := Part.join (Part.join l.items :: l.branches)

/-- After a sign that starts another branch beside those that there are. -/
def addBranch (l : Level) : Level := { branches := Part.join l.items :: l.branches }

/-- After a sign that takes all in front of it as one branch. -/
def closeBranches (l : Level) : Level := { branches := [l.whole] }

end Level

/-! ## Flags -/

/-- What holds at a place in a pattern. -/
structure Flags where
  anyCase : Bool := false
  /-- Whether the pattern is about characters. If not, it is about bytes. -/
  unicode : Bool := true
  /-- Whether blanks and comments are passed over. -/
  spaced : Bool := false
deriving DecidableEq, Repr

namespace Flags

/-- The flags after a setting: letters of flags that are to hold, and behind a minus sign letters
of those that are not. -/
def set (f : Flags) (setting : List Char) : Flags :=
  let on := setting.takeWhile (· ≠ '-')
  let off := setting.dropWhile (· ≠ '-')
  let value (letter : Char) (old : Bool) := on.contains letter || (old && !off.contains letter)
  { anyCase := value 'i' f.anyCase
    unicode := value 'u' f.unicode
    spaced := value 'x' f.spaced }

/-- Whether a character may stand for itself, or for a single byte. -/
def allowsCharacter (f : Flags) (isByte : Bool) (c : Char) : Bool :=
  if f.unicode then !f.anyCase else !isByte || c.toNat < 0x80

/-- Whether there may be a class of the digits, blanks or letters of all scripts. -/
def allowsProperty (f : Flags) (isNegated : Bool) : Bool := !f.unicode && !isNegated

/-- Whether there may be a class of ASCII characters with a name. -/
def allowsNamed (f : Flags) (isNegated : Bool) : Bool :=
  if f.unicode then !f.anyCase else !isNegated

/-- Whether there may be a class in brackets. -/
def allowsBrackets (f : Flags) (isNegated : Bool) : Bool := f.unicode || !isNegated

end Flags

end CimStore.Pattern

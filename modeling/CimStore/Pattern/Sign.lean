import CimStore.Integer
import CimStore.Pattern.Part
import CimStore.Text.Blank
import CimStore.Text.Hex

/-!
# Signs of a pattern

A `Sign` is what one or a few characters of a pattern stand for, when they are no brackets and do
not act on what is around them. Most characters stand for themselves; `escape` reads what follows a
backslash.

A `Scan` takes something off the front of a text and leaves the rest, or gives nothing if it does
not stand there. Where blanks and comments are passed over, they are so inside of many signs too:
`row` reads the digits of a number or the letters of a word with these behind each of them.
-/

namespace CimStore.Pattern

/-- Takes something off the front of a text. -/
abbrev Scan (α : Type) := List Char → Option (α × List Char)

/-! ## Blanks and comments -/

/-- The rest after blanks and comments, which end with the line. -/
def skipFrom (inComment : Bool) : List Char → List Char
  | [] => []
  | c :: cs =>
    if inComment then skipFrom (c ≠ '\n') cs
    else if Text.isBlank c then skipFrom false cs
    else if c = '#' then skipFrom true cs
    else c :: cs

/-- The rest after what is passed over. -/
def skip (f : Flags) (cs : List Char) : List Char := if f.spaced then skipFrom false cs else cs

/-- The characters at the front that `p` holds of, `limit` at most, and the rest. What is passed
over may follow each of them. -/
def row (f : Flags) (p : Char → Bool) : Nat → List Char → List Char × List Char
  | 0, cs => ([], cs)
  | _ + 1, [] => ([], [])
  | limit + 1, c :: cs =>
    if p c then
      let (ds, cs) := row f p limit (skip f cs)
      (c :: ds, cs)
    else ([], c :: cs)

/-! ## Signs -/

/-- What a sign stands for. -/
inductive Sign
  /-- A character, `isByte` if it is written as the number of a byte. -/
  | character (c : Char) (isByte : Bool)
  /-- Any character. -/
  | any
  /-- A digit, a blank or a letter of any script, or none of these. -/
  | property (isNegated : Bool)
  /-- The start or the end of a line or of the text. -/
  | edge
  /-- The boundary of a word, or a place that is none. -/
  | boundary
deriving DecidableEq, Repr

/-- A character by its code point: two, four or eight hexadecimal digits, or any number of them in
braces. Two digits stand for a byte as well. -/
def hexadecimal (f : Flags) (size : Nat) : Scan Sign := fun cs =>
  let isHex (c : Char) := (Text.hexDigit? c).isSome
  match skip f cs with
  | '\x7b' :: cs =>
    match row f isHex cs.length (skip f cs) with
    | ([], _) => none
    | (ds, '\x7d' :: cs) => (Text.codePoint? ds).map (.character · false, cs)
    | _ => none
  | cs =>
    let (ds, cs) := row f isHex size cs
    if ds.length = size then (Text.codePoint? ds).map (.character · (size = 2), cs) else none

/-- The names of boundaries of words. -/
def boundaryNames : List String := ["start", "end", "start-half", "end-half"]

/-- The boundary of a word, which may have a name in braces. A brace that no name follows belongs
to what comes next. -/
def namedBoundary (f : Flags) : Scan Sign := fun cs =>
  let isPart (c : Char) := c = '-' || ('A' ≤ c && c ≤ 'Z') || ('a' ≤ c && c ≤ 'z')
  match cs with
  | '\x7b' :: rest =>
    match row f isPart rest.length (skip f rest) with
    | ([], []) => none
    | ([], _) => some (.boundary, cs)
    | (name, '\x7d' :: rest) =>
      if boundaryNames.any (·.toList = name) then some (.boundary, rest) else none
    | _ => none
  | _ => some (.boundary, cs)

/-- The characters that letters stand for behind a backslash. -/
def controls : List (Char × Char) :=
  [('a', '\x07'), ('f', '\x0c'), ('t', '\t'), ('n', '\n'), ('r', '\r'), ('v', '\x0b')]

/-- The numbers of hexadecimal digits behind letters that start a code point. -/
def codePointSizes : List (Char × Nat) := [('x', 2), ('u', 4), ('U', 8)]

/-- What a backslash and the text behind it stand for. Every sign of ASCII may stand for itself;
digits, and letters without a meaning, may not. -/
def escape (f : Flags) : Scan Sign
  | [] => none
  | c :: cs =>
    match codePointSizes.lookup c, controls.lookup c with
    | some size, _ => hexadecimal f size cs
    | none, some control => some (.character control false, cs)
    | none, none =>
      if ['d', 's', 'w'].contains c then some (.property false, cs)
      else if ['D', 'S', 'W'].contains c then some (.property true, cs)
      else if ['A', 'z'].contains c then some (.edge, cs)
      else if ['B', '<', '>'].contains c then some (.boundary, cs)
      else if c = 'b' then namedBoundary f cs
      else if c.toNat < 0x80 && !c.isAlphanum then some (.character c false, cs)
      else none

/-- What stands behind a backslash, or a character that stands for itself. -/
def character (f : Flags) : Scan Sign
  | [] => none
  | '\\' :: cs => escape f cs
  | c :: cs => some (.character c false, cs)

/-- What stands outside of classes and is no bracket and nothing that acts on its neighbours. -/
def sign (f : Flags) : Scan Sign
  | '.' :: cs => some (.any, cs)
  | '^' :: cs | '$' :: cs => some (.edge, cs)
  | cs => character f cs

/-- The part that a sign is, if it may stand where it does. -/
def Sign.part? (f : Flags) : Sign → Option Part
  | character c isByte => if f.allowsCharacter isByte c then some {} else none
  | any => if f.unicode then some {} else none
  | property isNegated => if f.allowsProperty isNegated then some {} else none
  | edge => some {}
  | boundary => some { findsWords := f.unicode }

end CimStore.Pattern

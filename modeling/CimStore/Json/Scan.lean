import CimStore.Binary.Nearest
import CimStore.Error
import CimStore.Text.Hex

/-!
# Reading JSON from the front

A `Scan` takes a value off the front of a text and leaves the rest, or says what is wrong with the
text. Texts are read front to back, so of several faults the first one met counts.

* `items` and `members` walk a list and an object; `nextItem` and `nextKey` decide at each place
  whether another item follows.
* `text` reads a string; `wrongType` is the fault at a value of another type than the one needed.
* `skip` passes over a value of any kind and any depth, with a stack of the open brackets.
-/

namespace CimStore.Json

/-- Reads a value off the front of a text. -/
abbrev Scan (α : Type) := List Char → Except JsonFault (α × List Char)

def isSpace (c : Char) : Bool := c = ' ' || c = '\n' || c = '\t' || c = '\r'

def skipSpace (cs : List Char) : List Char := cs.dropWhile isSpace

/-! ## Strings -/

/-- The number that four hexadecimal digits write. -/
def hexNumber? (a b c d : Char) : Option Nat := do
  return ((← Text.hexDigit? a) * 16 + (← Text.hexDigit? b)) * 256 +
    ((← Text.hexDigit? c) * 16 + (← Text.hexDigit? d))

/-- Four hexadecimal digits. A text with less than four bytes left ends too early. -/
def hexNumber : Scan Nat
  | a :: b :: c :: d :: rest =>
    match hexNumber? a b c d with
    | some n => .ok (n, rest)
    | none => .error .malformed
  | cs =>
    if (String.ofList cs).utf8ByteSize < 4 then .error .truncated else .error .malformed

/-- The character that a letter stands for behind a backslash. -/
def escaped? (c : Char) : Option Char :=
  if c = '"' then some '"'
  else if c = '\\' then some '\\'
  else if c = '/' then some '/'
  else if c = 'b' then some '\x08'
  else if c = 'f' then some '\x0c'
  else if c = 'n' then some '\n'
  else if c = 'r' then some '\r'
  else if c = 't' then some '\t'
  else none

/-- The second half of a surrogate pair, behind the first half `high`. -/
def lowSurrogate (high : Nat) : Scan Char
  | [] => .error .truncated
  | ['\\'] => .error .truncated
  | '\\' :: 'u' :: cs => do
    let (low, cs) ← hexNumber cs
    if 0xDC00 ≤ low && low ≤ 0xDFFF then
      .ok (Char.ofNat ((high - 0xD800) * 0x400 + (low - 0xDC00) + 0x10000), cs)
    else .error .malformed
  | _ => .error .malformed

/-- A character written by its UTF-16 units, behind `\u`. -/
def unicodeEscape : Scan Char := fun cs => do
  let (n, cs) ← hexNumber cs
  if n < 0xD800 || 0xDFFF < n then .ok (Char.ofNat n, cs)
  else if n < 0xDC00 then lowSurrogate n cs
  else .error .malformed

/-- The next character of a string; nothing at its closing quote. -/
def stringChar : Scan (Option Char)
  | [] => .error .truncated
  | '"' :: cs => .ok (none, cs)
  | ['\\'] => .error .truncated
  | '\\' :: 'u' :: cs => do
    let (c, cs) ← unicodeEscape cs
    .ok (some c, cs)
  | '\\' :: c :: cs =>
    match escaped? c with
    | some c => .ok (some c, cs)
    | none => .error .malformed
  | c :: cs => if c.toNat < 0x20 then .error .malformed else .ok (some c, cs)

/-- The characters of a string after its opening quote, of which `fuel` at most are read. -/
def stringChars : Nat → Scan (List Char)
  | 0, _ => .error .malformed
  | fuel + 1, cs => do
    match ← stringChar cs with
    | (none, cs) => .ok ([], cs)
    | (some c, cs) =>
      let (text, cs) ← stringChars fuel cs
      .ok (c :: text, cs)

/-- A string after its opening quote. -/
def stringTail : Scan String := fun cs => do
  let (text, cs) ← stringChars (cs.length + 1) cs
  .ok (String.ofList text, cs)

/-! ## Numbers and words -/

/-- The parts of a number: its digits before and after the point, and its power of ten. -/
structure NumberText where
  whole : List Char
  fraction : List Char
  exponent : Int

/-- A digit or more; `missing` is the fault if the text ends before the first. -/
def digits (missing : JsonFault) (cs : List Char) : Except JsonFault (List Char × List Char) :=
  match cs.takeWhile isDigit with
  | [] => .error (if cs.isEmpty then missing else .malformed)
  | ds => .ok (ds, cs.dropWhile isDigit)

/-- The digits in front of the point: no zero in front of another digit. -/
def wholeDigits (missing : JsonFault) (cs : List Char) :
    Except JsonFault (List Char × List Char) := do
  match ← digits missing cs with
  | ('0' :: _ :: _, _) => .error .malformed
  | r => .ok r

def fractionDigits (missing : JsonFault) : List Char → Except JsonFault (List Char × List Char)
  | '.' :: cs => digits missing cs
  | cs => .ok ([], cs)

def exponentPart (missing : JsonFault) : List Char → Except JsonFault (Int × List Char)
  | [] => .ok (0, [])
  | c :: cs =>
    if c = 'e' || c = 'E' then do
      let (negative, cs) := takeSign cs
      let (ds, cs) ← digits missing cs
      .ok (signed negative (ofDigits ds), cs)
    else .ok (0, c :: cs)

/-- A number after its sign. -/
def numberText (missing : JsonFault) (cs : List Char) :
    Except JsonFault (NumberText × List Char) := do
  let (whole, cs) ← wholeDigits missing cs
  let (fraction, cs) ← fractionDigits missing cs
  let (exponent, cs) ← exponentPart missing cs
  .ok (⟨whole, fraction, exponent⟩, cs)

/-- Appends digits to a number as long as it stays below `2 ^ 64`; with the digits left over. -/
def appendDigits (n : Nat) : List Char → Nat × List Char
  | [] => (n, [])
  | d :: ds =>
    let n' := 10 * n + (d.toNat - '0'.toNat)
    if n' < 18446744073709551616 then appendDigits n' ds else (n, d :: ds)

/-- The factors of a number as it is read into double precision: leading digits that fit into 64
bits, and a power of ten. -/
def NumberText.factors (t : NumberText) : Nat × Int :=
  let (n, rest) := appendDigits 0 t.whole
  let (n, rest') := appendDigits n t.fraction
  (n, (rest.length : Int) - (t.fraction.length - rest'.length) + t.exponent)

/-- Whether a product of two numbers in double precision is out of range. -/
def productOverflows (x y : Binary binary64) : Bool :=
  let (n, d) := scaleDown 2 (-(x.exponent + y.exponent)) (x.mantissa * y.mantissa) 1
  (Binary.ofRatio? binary64 false n d).isNone

/-- Whether the number is too large for double precision. -/
def NumberText.overflows (t : NumberText) : Bool :=
  let (n, e) := t.factors
  if n = 0 || e < 0 then false
  else if 308 < e then true
  else
    let whole? (n : Nat) := Binary.ofRatio? binary64 false n 1
    match whole? n, whole? (Nat.pow 10 e.toNat) with
    | some x, some y => productOverflows x y
    | _, _ => true

/-- A number after its sign, which has to be in range. -/
def number (cs : List Char) : Except JsonFault (List Char) := do
  let (t, cs) ← numberText .truncated cs
  if t.overflows then .error .malformed else .ok cs

/-- The letters of a word that is to follow. -/
def word : List Char → List Char → Except JsonFault (List Char)
  | [], cs => .ok cs
  | _ :: _, [] => .error .truncated
  | w :: ws, c :: cs => if c = w then word ws cs else .error .malformed

/-- The rest after a word, a number or a string; nothing if none of these follows. -/
def scalar? (numberAfterSign : List Char → Except JsonFault (List Char))
    (stringAfterQuote : List Char → Except JsonFault (List Char)) :
    List Char → Option (Except JsonFault (List Char))
  | 'n' :: cs => some (word ['u', 'l', 'l'] cs)
  | 't' :: cs => some (word ['r', 'u', 'e'] cs)
  | 'f' :: cs => some (word ['a', 'l', 's', 'e'] cs)
  | '"' :: cs => some (stringAfterQuote cs)
  | '-' :: cs => some (numberAfterSign cs)
  | c :: cs => if isDigit c then some (numberAfterSign (c :: cs)) else none
  | [] => none

/-- The fault at the front of a text where a value of another type is needed: what is wrong with
the value itself, if that is a word, a number or a string. -/
def wrongType (cs : List Char) : JsonFault :=
  match scalar? number (fun cs => (·.2) <$> stringTail cs) cs with
  | some (.error fault) => fault
  | some (.ok _) => .mistyped
  | none =>
    match cs with
    | '[' :: _ | '\x7b' :: _ => .mistyped
    | _ => .malformed

/-- A string. -/
def text : Scan String := fun cs =>
  match skipSpace cs with
  | [] => .error .truncated
  | '"' :: cs => stringTail cs
  | cs => .error (wrongType cs)

/-! ## Lists and objects -/

/-- Where the next item of a list starts; nothing at its closing bracket. -/
def nextItem (first : Bool) (cs : List Char) : Except JsonFault (Option (List Char)) :=
  match skipSpace cs with
  | [] => .error .truncated
  | c :: cs =>
    if c = ']' then .ok none
    else if first then .ok (some (c :: cs))
    else if c = ',' then
      match skipSpace cs with
      | [] => .error .truncated
      | ']' :: _ => .error .malformed
      | cs => .ok (some cs)
    else .error .malformed

/-- The rest after a closing bracket. -/
def close (bracket : Char) (cs : List Char) : Except JsonFault (List Char) :=
  match skipSpace cs with
  | [] => .error .truncated
  | c :: cs => if c = bracket then .ok cs else .error .malformed

/-- The items of a list after its opening bracket, of which `fuel` at most are read. -/
def items {α : Type} (item : Scan α) : Nat → Bool → Scan (List α)
  | 0, _, _ => .error .malformed
  | fuel + 1, first, cs => do
    match ← nextItem first cs with
    | none => return ([], ← close ']' cs)
    | some cs =>
      let (x, cs) ← item cs
      let (xs, cs) ← items item fuel false cs
      .ok (x :: xs, cs)

/-- The items of a list after its opening bracket. -/
def list {α : Type} (item : Scan α) : Scan (List α) := fun cs =>
  items item (cs.length + 1) true cs

/-- The text after the opening quote of the next key of an object; nothing at the closing
bracket. -/
def nextKey (first : Bool) (cs : List Char) : Except JsonFault (Option (List Char)) :=
  match skipSpace cs with
  | [] => .error .truncated
  | c :: cs =>
    if c = '\x7d' then .ok none
    else if first then
      if c = '"' then .ok (some cs) else .error .malformed
    else if c = ',' then
      match skipSpace cs with
      | [] => .error .truncated
      | '"' :: cs => .ok (some cs)
      | _ => .error .malformed
    else .error .malformed

/-- The rest after the colon behind a key. -/
def colon (cs : List Char) : Except JsonFault (List Char) := close ':' cs

/-- Folds the members of an object after its opening bracket, of which `fuel` at most are read:
`member` gets what has been gathered, the key, and the text after the key. -/
def members {σ : Type} (member : σ → String → Scan σ) : Nat → Bool → σ → Scan σ
  | 0, _, _, _ => .error .malformed
  | fuel + 1, first, state, cs => do
    match ← nextKey first cs with
    | none => return (state, ← close '\x7d' cs)
    | some cs =>
      let (key, cs) ← stringTail cs
      let (state, cs) ← member state key cs
      members member fuel false state cs

/-- Folds the members of an object after its opening bracket. -/
def object {σ : Type} (member : σ → String → Scan σ) (start : σ) : Scan σ := fun cs =>
  members member (cs.length + 1) true start cs

/-! ## Values that are passed over -/

/-- The rest after a string that is not looked at: surrogates need not come in pairs. -/
def skipString : Nat → List Char → Except JsonFault (List Char)
  | 0, _ => .error .malformed
  | _ + 1, [] => .error .truncated
  | _ + 1, '"' :: cs => .ok cs
  | _ + 1, ['\\'] => .error .truncated
  | fuel + 1, '\\' :: 'u' :: cs => do
    let (_, cs) ← hexNumber cs
    skipString fuel cs
  | fuel + 1, '\\' :: c :: cs =>
    if (escaped? c).isSome then skipString fuel cs else .error .malformed
  | fuel + 1, c :: cs => if c.toNat < 0x20 then .error .malformed else skipString fuel cs

/-- The rest after a number that is not looked at: it may be out of range. -/
def skipNumber (cs : List Char) : Except JsonFault (List Char) :=
  (·.2) <$> numberText .malformed cs

/-- The value behind the next key of an object that is passed over. -/
def skipKey (cs : List Char) : Except JsonFault (List Char) :=
  match skipSpace cs with
  | [] => .error .truncated
  | '"' :: cs => do colon (← skipString (cs.length + 1) cs)
  | _ => .error .malformed

/-- What a bracket that is still open belongs to. -/
inductive Open
  | list | object
deriving DecidableEq, Repr

/-- The bracket that closes an open one. -/
def Open.closing : Open → Char
  | list => ']'
  | object => '\x7d'

/-- The rest after a value and after everything else that is still open around it. `before` says
that the value itself is still to come. -/
def skipFrom : Nat → Bool → List Open → List Char → Except JsonFault (List Char)
  | 0, _, _, _ => .error .malformed
  | fuel + 1, true, opened, cs =>
    let cs := skipSpace cs
    match scalar? skipNumber (fun cs => skipString (cs.length + 1) cs) cs with
    | some rest => do skipFrom fuel false opened (← rest)
    | none =>
      match cs with
      | [] => .error .truncated
      | '[' :: cs =>
        match skipSpace cs with
        | [] => .error .truncated
        | ']' :: cs => skipFrom fuel false opened cs
        | cs => skipFrom fuel true (.list :: opened) cs
      | '\x7b' :: cs =>
        match skipSpace cs with
        | [] => .error .truncated
        | '\x7d' :: cs => skipFrom fuel false opened cs
        | cs => do skipFrom fuel true (.object :: opened) (← skipKey cs)
      | _ => .error .malformed
  | _ + 1, false, [], cs => .ok cs
  | fuel + 1, false, o :: opened, cs =>
    match skipSpace cs with
    | [] => .error .truncated
    | c :: cs =>
      if c = o.closing then skipFrom fuel false opened cs
      else if c = ',' then
        match o with
        | .list => skipFrom fuel true (.list :: opened) cs
        | .object => do skipFrom fuel true (.object :: opened) (← skipKey cs)
      else .error .malformed

/-- The rest after a value of any kind. -/
def skip (cs : List Char) : Except JsonFault (List Char) :=
  skipFrom (2 * cs.length + 2) true [] cs

end CimStore.Json

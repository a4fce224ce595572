import CimStore.Binary.Nearest
import CimStore.Json.Scan
import CimStore.Text.Cut
import CimStore.Text.Hex
import CimStore.Toml.Tables

/-!
# Reading the values of a TOML document

A `Scan` takes something off the front of a text and leaves the rest, or gives nothing if it does
not stand there. `value` reads a value of any kind: strings in four notations, booleans, integers
in four bases, floats, dates and times, lists and inline tables; `key` reads a dotted key.
-/

namespace CimStore.Toml

/-- Takes something off the front of a text. -/
abbrev Scan (α : Type) := List Char → Option (α × List Char)

/-! ## Blanks, line ends and comments -/

def isBlank (c : Char) : Bool := c = ' ' || c = '\t'

def skipBlanks (cs : List Char) : List Char := cs.dropWhile isBlank

/-- The rest after a line end. -/
def lineEnd? : List Char → Option (List Char)
  | '\n' :: cs => some cs
  | '\r' :: '\n' :: cs => some cs
  | _ => none

/-- Whether a comment or a string may hold the character as it is: no control character but the
tab. -/
def isPlain (c : Char) : Bool := c = '\t' || (0x20 ≤ c.toNat && c.toNat ≠ 0x7F)

/-- The rest after a comment, if there is one. -/
def skipComment : List Char → List Char
  | '#' :: cs => cs.dropWhile isPlain
  | cs => cs

/-- The rest after blanks, a comment and the end of the line or the document. -/
def endLine? (cs : List Char) : Option (List Char) :=
  match skipComment (skipBlanks cs) with
  | [] => some []
  | cs => lineEnd? cs

/-- The rest after blanks, line ends and comments. -/
def skipLines : Nat → List Char → List Char
  | 0, cs => cs
  | fuel + 1, cs =>
    let cs := skipComment (skipBlanks cs)
    match lineEnd? cs with
    | some cs => skipLines fuel cs
    | none => cs

/-- The rest after the blanks, line ends and comments inside a list. -/
def skipSpace (cs : List Char) : List Char := skipLines (cs.length + 1) cs

/-! ## Strings -/

/-- The character with a code point of `size` digits. -/
def unicodeEscape (size : Nat) : Scan Char := fun cs =>
  if cs.length < size then none
  else (Text.codePoint? (cs.take size)).map (·, cs.drop size)

/-- An escaped character behind its backslash. -/
def escaped : Scan Char
  | 'u' :: cs => unicodeEscape 4 cs
  | 'U' :: cs => unicodeEscape 8 cs
  | '/' :: _ => none
  | c :: cs => (Json.escaped? c).map (·, cs)
  | [] => none

/-- What stands next in a string: characters of it, or its end. -/
inductive Piece
  | content (cs : List Char)
  /-- The closing quotes and the quotes in front of them. -/
  | close (cs : List Char)

/-- The characters of a string up to its closing quotes, in `fuel` pieces at most. -/
def pieces (piece : Scan Piece) : Nat → Scan (List Char)
  | 0, _ => none
  | fuel + 1, cs => do
    match ← piece cs with
    | (.close last, cs) => some (last, cs)
    | (.content text, cs) =>
      let (texts, cs) ← pieces piece fuel cs
      some (text ++ texts, cs)

/-- A string after its opening quotes. -/
def stringTail (piece : Scan Piece) : Scan String := fun cs => do
  let (text, cs) ← pieces piece (cs.length + 1) cs
  some (String.ofList text, cs)

/-- A piece of a string on one line. -/
def linePiece (quote : Char) (escapes : Bool) : Scan Piece
  | [] => none
  | c :: cs =>
    if c = quote then some (.close [], cs)
    else if escapes && c = '\\' then (escaped cs).map fun r => (.content [r.1], r.2)
    else if isPlain c then some (.content [c], cs)
    else none

/-- The rest after blanks and line ends. -/
def skipBlankLines : List Char → List Char
  | [] => []
  | '\r' :: '\n' :: cs => skipBlankLines cs
  | c :: cs => if isBlank c || c = '\n' then skipBlankLines cs else c :: cs

/-- The rest after a backslash at the end of a line: the line end, and blanks and line ends that
follow. -/
def joinedLine? (cs : List Char) : Option (List Char) :=
  (lineEnd? (skipBlanks cs)).map skipBlankLines

/-- A piece of a string over several lines. Three quotes close it, and two more in front of these
belong to the text. -/
def blockPiece (quote : Char) (escapes : Bool) : Scan Piece := fun cs =>
  match cs with
  | [] => none
  | c :: rest =>
    if c = quote then
      match (cs.take 5).takeWhile (· = quote) with
      | [_, _, _, _, _] => some (.close [quote, quote], cs.drop 5)
      | [_, _, _, _] => some (.close [quote], cs.drop 4)
      | [_, _, _] => some (.close [], cs.drop 3)
      | _ => some (.content [quote], rest)
    else if escapes && c = '\\' then
      match joinedLine? rest with
      | some rest => some (.content [], rest)
      | none => (escaped rest).map fun r => (.content [r.1], r.2)
    else
      match lineEnd? cs with
      | some rest => some (.content ['\n'], rest)
      | none => if isPlain c then some (.content [c], rest) else none

/-- A text without the line end that it may start with. -/
def dropLineEnd (cs : List Char) : List Char := (lineEnd? cs).getD cs

/-- A string on one line. -/
def lineString : Scan String
  | '"' :: cs => stringTail (linePiece '"' true) cs
  | '\'' :: cs => stringTail (linePiece '\'' false) cs
  | _ => none

/-- A string in any notation. -/
def string : Scan String
  | '"' :: '"' :: '"' :: cs => stringTail (blockPiece '"' true) (dropLineEnd cs)
  | '\'' :: '\'' :: '\'' :: cs => stringTail (blockPiece '\'' false) (dropLineEnd cs)
  | cs => lineString cs

/-! ## Keys -/

def isBareKeyChar (c : Char) : Bool := c.isAlphanum || c = '_' || c = '-'

/-- A name in a key: bare or in quotes. -/
def name : Scan String := fun cs =>
  match cs.takeWhile isBareKeyChar with
  | [] => lineString cs
  | ds => some (String.ofList ds, cs.dropWhile isBareKeyChar)

/-- The names of a dotted key, of which `fuel` at most are read. -/
def names : Nat → Scan (List String)
  | 0, _ => none
  | fuel + 1, cs => do
    let (first, cs) ← name (skipBlanks cs)
    match skipBlanks cs with
    | '.' :: cs =>
      let (rest, cs) ← names fuel cs
      some (first :: rest, cs)
    | cs => some ([first], cs)

/-- How many names a key may have, and how deep lists and inline tables may nest. -/
def maxDepth : Nat := 79

/-- A dotted key, with blanks around its names. -/
def key : Scan (List String) := names maxDepth

/-! ## Numbers, dates and times -/

/-- The digits of a number, without the underscores between them. -/
def digitRun (isDigit : Char → Bool) : Scan (List Char)
  | [] => none
  | c :: cs =>
    if isDigit c then
      match cs with
      | '_' :: rest => do
        let (ds, cs) ← digitRun isDigit rest
        some (c :: ds, cs)
      | cs =>
        match digitRun isDigit cs with
        | some (ds, cs) => some (c :: ds, cs)
        | none => some ([c], cs)
    else none

/-- A decimal whole number after its sign: no zero in front of another digit. -/
def wholeDigits : Scan (List Char)
  | '0' :: cs => some (['0'], cs)
  | cs => digitRun isDigit cs

/-- The digits of a fraction with its point, if there is one. -/
def fraction : Scan (List Char)
  | '.' :: cs => (digitRun isDigit cs).map fun r => ('.' :: r.1, r.2)
  | cs => some ([], cs)

/-- The sign of a number as it is written. -/
def signChars : List Char → List Char × List Char
  | '+' :: cs => (['+'], cs)
  | '-' :: cs => (['-'], cs)
  | cs => ([], cs)

/-- The power of ten of a float, if there is one. -/
def exponent : Scan (List Char)
  | [] => some ([], [])
  | c :: cs =>
    if c = 'e' || c = 'E' then
      let (sign, cs) := signChars cs
      (digitRun isDigit cs).map fun r => ('e' :: (sign ++ r.1), r.2)
    else some ([], c :: cs)

/-- Whether a float can be represented: one that is too large cannot, unless it is negative. -/
def isFloat (text : List Char) : Bool :=
  match Decimal.ofChars? text with
  | some d => d.negative || (Binary.nearest? binary64 d).isSome
  | none => false

/-- The rest after a decimal integer or a float. -/
def decimal? (cs : List Char) : Option (List Char) := do
  let (sign, cs) := signChars cs
  let (whole, cs) ← wholeDigits cs
  let (fraction, cs) ← fraction cs
  let (exponent, cs) ← exponent cs
  let text := sign ++ whole ++ fraction ++ exponent
  if fraction.isEmpty && exponent.isEmpty then (integerOfChars? text).map fun _ => cs
  else if isFloat text then some cs
  else none

/-- The rest after an integer in base `base`, behind the letter for the base. -/
def based? (base : Nat) (cs : List Char) : Option (List Char) := do
  let (ds, cs) ← digitRun (fun c => (Text.hexDigit? c).any (· < base)) cs
  let n := ds.foldl (fun n d => base * n + (Text.hexDigit? d).getD 0) 0
  if n ≤ maxInteger then some cs else none

/-- The rest after a word. -/
def word? (w : String) (cs : List Char) : Option (List Char) := Text.afterLead? w.toList cs

/-- The rest after infinity or what is no number. -/
def special? (cs : List Char) : Option (List Char) :=
  word? "inf" cs <|> word? "nan" cs

/-- A number of `size` digits. -/
def field (size : Nat) : Scan Nat := fun cs =>
  let ds := cs.take size
  if ds.length = size && ds.all isDigit then some (ofDigits ds, cs.drop size) else none

/-- The days of a month. -/
def daysIn (year month : Nat) : Nat :=
  if month = 2 then
    if year % 4 = 0 && (year % 100 ≠ 0 || year % 400 = 0) then 29 else 28
  else if month = 4 || month = 6 || month = 9 || month = 11 then 30
  else 31

/-- The rest after a date. -/
def date? (cs : List Char) : Option (List Char) := do
  let (year, cs) ← field 4 cs
  let (month, cs) ← field 2 (← word? "-" cs)
  let (day, cs) ← field 2 (← word? "-" cs)
  if 1 ≤ month && month ≤ 12 && 1 ≤ day && day ≤ daysIn year month then some cs else none

/-- The rest after hours and minutes. -/
def clock? (cs : List Char) : Option (List Char) := do
  let (hour, cs) ← field 2 cs
  let (minute, cs) ← field 2 (← word? ":" cs)
  if hour ≤ 23 && minute ≤ 59 then some cs else none

/-- The rest after a fraction of a second, if there is one. -/
def skipFraction : List Char → List Char
  | '.' :: c :: cs => if isDigit c then cs.dropWhile isDigit else '.' :: c :: cs
  | cs => cs

/-- The rest after a time of day. -/
def time? (cs : List Char) : Option (List Char) := do
  let cs ← clock? cs
  let (second, cs) ← field 2 (← word? ":" cs)
  if second ≤ 60 then some (skipFraction cs) else none

/-- The rest after an offset from universal time, if there is one. -/
def offset? : List Char → Option (List Char)
  | 'Z' :: cs => some cs
  | 'z' :: cs => some cs
  | '+' :: cs => clock? cs
  | '-' :: cs => clock? cs
  | cs => some cs

/-- The rest after the time of day that follows a date, if there is one. -/
def timeOfDate? : List Char → Option (List Char)
  | [] => some []
  | c :: cs =>
    if c = 'T' || c = 't' || (c = ' ' && (field 2 cs).isSome) then
      (time? cs).bind offset?
    else some (c :: cs)

/-- The rest after a number, a date or a time. -/
def number? (cs : List Char) : Option (List Char) :=
  match cs with
  | '0' :: 'x' :: cs => based? 16 cs
  | '0' :: 'o' :: cs => based? 8 cs
  | '0' :: 'b' :: cs => based? 2 cs
  | cs =>
    ((date? cs).bind timeOfDate?) <|> time? cs <|> decimal? cs <|> special? (signChars cs).2

/-! ## Values -/

/-- The rest after the values of a list, of which `fuel` at most are read. -/
def listTail (value : Scan Value) : Nat → List Char → Option (List Char)
  | 0, _ => none
  | fuel + 1, cs =>
    match skipSpace cs with
    | ']' :: cs => some cs
    | cs => do
      let (_, cs) ← value cs
      match skipSpace cs with
      | ',' :: cs => listTail value fuel cs
      | ']' :: cs => some cs
      | _ => none

/-- A key and its value. -/
def pair (value : Scan Value) : Scan (List String × Value) := fun cs => do
  let (path, cs) ← key cs
  let (v, cs) ← value (skipBlanks (← word? "=" cs))
  some ((path, v), cs)

/-- The members with one more value under a dotted key. -/
def Members.putPath (path : List String) (v : Value) (ms : Members) : Option Members := do
  ms.put path.dropLast (← path.getLast?) v

/-- The rest after the members of an inline table, of which `fuel` at most are read. -/
def tableTail (value : Scan Value) : Nat → Members → List Char → Option (List Char)
  | 0, _, _ => none
  | fuel + 1, ms, cs => do
    let ((path, v), cs) ← pair value cs
    let ms ← ms.putPath path v
    match skipBlanks cs with
    | ',' :: cs => tableTail value fuel ms cs
    | '\x7d' :: cs => some cs
    | _ => none

/-- A value in which brackets nest up to `depth`. -/
def valueTo : Nat → Scan Value
  | depth, cs =>
    match cs, depth with
    | '"' :: _, _ | '\'' :: _, _ => (string cs).map fun r => (.string r.1, r.2)
    | 't' :: _, _ => (word? "true" cs).map (.boolean true, ·)
    | 'f' :: _, _ => (word? "false" cs).map (.boolean false, ·)
    | '[' :: cs, depth + 1 =>
      (listTail (valueTo depth) (cs.length + 1) cs).map (.other, ·)
    | '\x7b' :: cs, depth + 1 =>
      match skipBlanks cs with
      | '\x7d' :: cs => some (.other, cs)
      | cs => (tableTail (valueTo depth) (cs.length + 1) [] cs).map (.other, ·)
    | _, _ => (number? cs).map (.other, ·)

/-- A value. -/
def value : Scan Value := valueTo maxDepth

end CimStore.Toml

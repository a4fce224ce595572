import CimStore.Json.Print

/-!
# Writing strings of a TOML document

Of the four notations a text is written in the first that shows it as it is: on one line with
escapes, on one line as it stands, over several lines with escapes, over several lines as it
stands. Where none does, control characters are escaped.
-/

namespace CimStore.Toml

/-- The length of the longest run of `c`; `run` is the length of the run in front of the text. -/
def longestRun (c : Char) : Nat → List Char → Nat
  | run, [] => run
  | run, d :: ds => if d = c then longestRun c (run + 1) ds else max run (longestRun c 0 ds)

/-- Control characters other than the tab and the line feed can only be written as escapes. -/
def needsEscape (c : Char) : Bool :=
  (c.toNat < 0x20 && c ≠ '\t' && c ≠ '\n') || c.toNat = 0x7F

/-- A digit of a hexadecimal number. -/
def upperHexDigit (n : Nat) : Char := (Json.hexDigit n).toUpper

/-- A character as it stands in a string with escapes, quotes and line feeds apart. -/
def escapeChar (c : Char) : List Char :=
  if c = '\\' then ['\\', '\\']
  else if c = '\t' then ['\\', 't']
  else if c = '\r' then ['\\', 'r']
  else if c = '\x08' then ['\\', 'b']
  else if c = '\x0c' then ['\\', 'f']
  else if needsEscape c then
    ['\\', 'u', '0', '0', upperHexDigit (c.toNat / 16), upperHexDigit (c.toNat % 16)]
  else [c]

/-- A text with escapes on one line. -/
def escapeLine (cs : List Char) : List Char :=
  cs.flatMap fun c =>
    if c = '"' then ['\\', '"'] else if c = '\n' then ['\\', 'n'] else escapeChar c

/-- A text with escapes over several lines. After two quotes in a row a third one is escaped;
`run` counts the quotes in front of the text. -/
def escapeBlock : Nat → List Char → List Char
  | _, [] => []
  | run, c :: cs =>
    if c = '"' then
      if run < 2 then '"' :: escapeBlock (run + 1) cs else '\\' :: '"' :: escapeBlock 0 cs
    else if c = '\n' then '\n' :: escapeBlock 0 cs
    else escapeChar c ++ escapeBlock 0 cs

/-- A body between three quotes. A text of several lines starts on a line of its own. -/
def block (quote : Char) (ownLine : Bool) (body : List Char) : List Char :=
  let quotes := [quote, quote, quote]
  quotes ++ (if ownLine then ['\n'] else []) ++ body ++ quotes

/-- A text as a string of a document. -/
def quoteChars (cs : List Char) : List Char :=
  let plain := !cs.any needsEscape
  let backslash := cs.contains '\\'
  let severalLines := cs.contains '\n'
  let doubles := longestRun '"' 0 cs
  let singles := longestRun '\'' 0 cs
  let line := '"' :: (escapeLine cs ++ ['"'])
  let lines := block '"' severalLines (escapeBlock 0 cs)
  if plain && !backslash && doubles = 0 && !severalLines then line
  else if plain && singles = 0 && !severalLines then '\'' :: (cs ++ ['\''])
  else if plain && !backslash && doubles ≤ 2 then lines
  else if plain && singles ≤ 2 then block '\'' severalLines cs
  else if severalLines then lines
  else line

def quote (text : String) : String := String.ofList (quoteChars text.toList)

end CimStore.Toml

/-!
# Writing JSON

Lists and objects are written over several lines, each level indented by two more spaces; an empty
one stays on its line. Strings escape the quote, the backslash and the control characters below the
space, the common ones by a letter.
-/

namespace CimStore.Json

/-- The digit for a number below sixteen. -/
def hexDigit (n : Nat) : Char := Nat.digitChar n

/-- A character as it stands in a string. -/
def escapeChar (c : Char) : List Char :=
  if c = '"' then ['\\', '"']
  else if c = '\\' then ['\\', '\\']
  else if c = '\n' then ['\\', 'n']
  else if c = '\r' then ['\\', 'r']
  else if c = '\t' then ['\\', 't']
  else if c = '\x08' then ['\\', 'b']
  else if c = '\x0c' then ['\\', 'f']
  else if c.toNat < 0x20 then
    ['\\', 'u', '0', '0', hexDigit (c.toNat / 16), hexDigit (c.toNat % 16)]
  else [c]

/-- A string in quotes. -/
def quote (s : String) : List Char :=
  '"' :: (s.toList.flatMap escapeChar ++ ['"'])

/-- The parts with a comma and a line break between them. -/
def commaLines : List (List Char) → List Char
  | [] => []
  | [part] => part
  | part :: parts => part ++ ',' :: '\n' :: commaLines parts

/-- Parts in brackets, one a line, in a text that is indented by `indent`. -/
def block (opening closing : Char) (indent : Nat) (parts : List (List Char)) : List Char :=
  if parts.isEmpty then [opening, closing]
  else
    opening :: '\n' :: (commaLines (parts.map (List.replicate (indent + 2) ' ' ++ ·)) ++
      '\n' :: (List.replicate indent ' ' ++ [closing]))

def listBlock (indent : Nat) (parts : List (List Char)) : List Char := block '[' ']' indent parts

def objectBlock (indent : Nat) (parts : List (List Char)) : List Char :=
  block '\x7b' '\x7d' indent parts

/-- A member of an object. -/
def member (key : String) (value : List Char) : List Char := quote key ++ ':' :: ' ' :: value

end CimStore.Json

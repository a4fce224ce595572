import CimStore.Decimal
import CimStore.Pattern
import CimStore.Text.Bytes
import CimStore.Text.Cut

/-!
# Log filters

A log filter is a list of directives with commas between them, each of which says from which level
on messages are wanted: `info`, `store=debug`, `store[save{id=3}]=trace`. What is logged is not
modelled. A directive that cannot be understood is passed over with a complaint, and
`LogFilter.complaints` gives these.

A directive has a level of its own behind an equals sign; without one its text is a level or a
target, and so never wrong. The value of a field is a number or a pattern, and it is looked at
before anything behind the field. Blanks around a directive are passed over, but the field and the
level are then cut out of the directive with its blanks, in the places that they have without them.
-/

namespace CimStore.LogFilter

/-- Why a directive cannot be understood. -/
inductive Fault
  | malformed
  | unknownLevel
  /-- The value of a field is no pattern. -/
  | unusableValue (fault : Pattern.Fault)
deriving DecidableEq, Repr

def Fault.message : Fault → String
  | malformed => "invalid filter directive"
  | unknownLevel =>
    "error parsing level filter: expected one of \"off\", \"error\", \"warn\", \"info\", " ++
      "\"debug\", \"trace\", or a number 0-5"
  | unusableValue fault => "invalid field filter: " ++ fault.message

/-! ## Levels -/

/-- The words for levels. -/
def levels : List String := ["off", "error", "warn", "info", "debug", "trace"]

/-- The number of the level that lets everything through. -/
def highestLevel : Int := 5

/-- Whether a text names a level: by a word in any case, or by a number without a minus sign. -/
def isLevel (cs : List Char) : Bool :=
  levels.any (·.toList = cs.map Char.toLower) ||
    (cs.head? ≠ some '-' && (integerOfChars? cs).any (· ≤ highestLevel))

/-! ## Fields -/

/-- Whether a value is a number, or a word for one that is none or has no end. -/
def isNumber (value : List Char) : Bool :=
  let word := (takeSign value).2.map Char.toLower
  (Decimal.ofChars? value).isSome || ["inf", "infinity", "nan"].any (·.toList = word)

/-- Checks a field: a name, or a name and a value between equals signs. What follows a second equals
sign does not count. -/
def checkField (field : List Char) : Except Fault Unit :=
  match Text.splitAt '=' field with
  | _ :: value :: _ =>
    match if isNumber value then none else Pattern.fault? value with
    | some fault => .error (.unusableValue fault)
    | none => .ok ()
  | _ => .ok ()

/-! ## Directives -/

/-- The bytes of a directive from the place on where `rest`, an end of its text without the blanks
around it, stands in that text. -/
def bytesFrom (directive rest : List Char) : List UInt8 :=
  let size (cs : List Char) := (String.ofList cs).utf8ByteSize
  (Text.bytes (String.ofList directive)).drop (size (Text.trimChars directive) - size rest)

/-- Checks the level of a directive. It may be left out behind the equals sign. -/
def checkLevel (directive level : List Char) : Except Fault Unit :=
  let level := (Text.ofBytes (bytesFrom directive level)).toList
  if level.isEmpty || isLevel level then .ok () else .error .unknownLevel

/-- Checks what stands behind a span. -/
def checkEnd (directive : List Char) : List Char → Except Fault Unit
  | [] => .ok ()
  | '=' :: level => checkLevel directive level
  | _ :: _ => .error .malformed

/-- Checks the field of a span, of at least one character, and what stands behind it. -/
def checkSpanField (directive cs : List Char) : Except Fault Unit := do
  let field := cs.takeWhile (· ≠ '\x7d')
  let size := (String.ofList field).utf8ByteSize
  if field.isEmpty || field = cs then throw .malformed
  checkField (Text.ofBytes ((bytesFrom directive cs).take size)).toList
  match cs.drop (field.length + 1) with
  | ']' :: rest => checkEnd directive rest
  | _ => throw .malformed

/-- Checks a span behind its opening bracket. -/
def checkSpan (directive : List Char) : List Char → Except Fault Unit
  | [] => .error .malformed
  | ']' :: cs => checkEnd directive cs
  | '\x7b' :: cs => checkSpanField directive cs
  | _ :: cs => checkSpan directive cs

/-- Checks a target, or a level that stands alone. -/
def checkTarget (directive : List Char) : List Char → Except Fault Unit
  | [] => .ok ()
  | '=' :: level => checkLevel directive level
  | '[' :: cs => checkSpan directive cs
  | _ :: cs => checkTarget directive cs

/-- Whether a directive may start with `c`, unless it starts with a span. -/
def isStart (c : Char) : Bool := Text.isAlphanumeric c || ['-', ':', '_'].contains c

/-- Checks a directive. -/
def check (directive : List Char) : Except Fault Unit :=
  match Text.trimChars directive with
  | [] => .error .malformed
  | '[' :: cs => checkSpan directive cs
  | c :: cs => if isStart c then checkTarget directive cs else .error .malformed

/-- The complaint about a directive. -/
def complaint? (directive : List Char) : Option String :=
  match check directive with
  | .ok () => none
  | .error fault => some ("ignoring `" ++ String.ofList directive ++ "`: " ++ fault.message)

/-- The complaints about a filter, in the order of its directives. -/
def complaints (filter : String) : List String :=
  ((Text.splitAt ',' filter.toList).filter (· ≠ [])).filterMap complaint?

end CimStore.LogFilter

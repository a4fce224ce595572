import CimStore.Text.Blank
import CimStore.Text.Cut

/-!
# Phase codes

The enumeration of the phases of a terminal or a piece of equipment. A text names a code by its
literal, alone or qualified by the name of the enumeration; in front of either there may be a
namespace that ends in `#`.
-/

namespace CimStore

/-- Which phases are present; `s1` and `s2` are the secondary phases of a split winding. -/
inductive PhaseCode
  | abcn | abc | abn | acn | bcn | ab | ac | bc | an | bn | cn | a | b | c | n
  | s1n | s2n | s12n | s1 | s2 | s12
deriving DecidableEq, Repr

namespace PhaseCode

/-- All codes, in the order of their declaration. -/
def all : List PhaseCode :=
  [abcn, abc, abn, acn, bcn, ab, ac, bc, an, bn, cn, a, b, c, n, s1n, s2n, s12n, s1, s2, s12]

/-- The name of the enumeration. -/
def enumName : String := "PhaseCode"

def literal : PhaseCode → String
  | abcn => "ABCN" | abc => "ABC" | abn => "ABN" | acn => "ACN" | bcn => "BCN"
  | ab => "AB" | ac => "AC" | bc => "BC" | an => "AN" | bn => "BN" | cn => "CN"
  | a => "A" | b => "B" | c => "C" | n => "N"
  | s1n => "s1N" | s2n => "s2N" | s12n => "s12N" | s1 => "s1" | s2 => "s2" | s12 => "s12"

/-- The literal behind the name of the enumeration. -/
def qualified (p : PhaseCode) : String := enumName ++ "." ++ p.literal

/-- The code with this literal. -/
def ofLiteral? (s : List Char) : Option PhaseCode :=
  all.find? fun p => p.literal.toList = s

/-- The code that a text names. -/
def parse? (text : String) : Option PhaseCode :=
  let cs := Text.trimChars text.toList
  let name := (Text.afterLast? '#' cs).getD cs
  ofLiteral? ((Text.afterLead? (enumName.toList ++ ['.']) name).getD name)

end PhaseCode

end CimStore

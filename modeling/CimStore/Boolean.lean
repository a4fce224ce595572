import CimStore.Text.Blank

/-!
# Booleans as text

Every text gives a boolean: `true` in any case of its four letters is true and all else is false.
-/

namespace CimStore

/-- Only the word `true`, in upper or lower case and with blanks around it, is true. -/
def parseBoolean (text : String) : Bool :=
  (Text.trimChars text.toList).map Char.toLower == ['t', 'r', 'u', 'e']

def formatBoolean (b : Bool) : String := if b then "true" else "false"

end CimStore

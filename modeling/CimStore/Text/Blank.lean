/-!
# White space around a text

A character is blank if it has the Unicode property `White_Space`. Texts that come from files
carry blanks around them that are not part of the value: `trimChars` removes them at both ends and
nowhere else.
-/

namespace CimStore.Text

/-- The Unicode property `White_Space`: 25 characters, of which the zero-width space and the byte
order mark are none. -/
def isBlank (c : Char) : Bool :=
  let n := c.toNat
  (0x09 ≤ n && n ≤ 0x0D) || n == 0x20 || n == 0x85 || n == 0xA0 || n == 0x1680 ||
    (0x2000 ≤ n && n ≤ 0x200A) || n == 0x2028 || n == 0x2029 || n == 0x202F || n == 0x205F ||
    n == 0x3000

/-- The characters from the first that is not blank to the last that is not. -/
def trimChars (cs : List Char) : List Char :=
  ((cs.dropWhile isBlank).reverse.dropWhile isBlank).reverse

end CimStore.Text

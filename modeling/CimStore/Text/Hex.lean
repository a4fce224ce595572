/-!
# Hexadecimal digits

Characters are written by the hexadecimal digits of their code points in settings and in patterns,
bytes in addresses.
-/

namespace CimStore.Text

/-- The value of a hexadecimal digit. -/
def hexDigit? (c : Char) : Option Nat :=
  if '0' ≤ c && c ≤ '9' then some (c.toNat - '0'.toNat)
  else if 'a' ≤ c && c ≤ 'f' then some (c.toNat - 'a'.toNat + 10)
  else if 'A' ≤ c && c ≤ 'F' then some (c.toNat - 'A'.toNat + 10)
  else none

/-- The character with a code point that hexadecimal digits write. -/
def codePoint? (ds : List Char) : Option Char := do
  let n ← ds.foldlM (fun n d => (hexDigit? d).map (16 * n + ·)) 0
  if n < 0xD800 || (0xDFFF < n && n < 0x110000) then some (Char.ofNat n) else none

end CimStore.Text

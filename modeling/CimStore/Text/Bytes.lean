/-!
# Texts as bytes

Names of files are bytes, which mostly are the UTF-8 form of a text but need not be. `bytes` gives
the UTF-8 form of a text; `ofBytes` shows bytes as text.
-/

namespace CimStore.Text

/-- The UTF-8 form of a text. -/
def bytes (t : String) : List UInt8 := t.toUTF8.toList

/-- The characters of bytes from a position on, of which `fuel` at most are read. -/
def charsFrom (bs : ByteArray) : Nat → Nat → List Char
  | 0, _ => []
  | fuel + 1, i =>
    if i < bs.size then
      match bs.utf8DecodeChar? i with
      | some c => c :: charsFrom bs fuel (i + c.utf8Size)
      | none => '\ufffd' :: charsFrom bs fuel (i + 1)
    else []

/-- Bytes as text. A byte that is no part of the UTF-8 form of a character shows as U+FFFD. -/
def ofBytes (bs : List UInt8) : String :=
  String.ofList (charsFrom ⟨bs.toArray⟩ bs.length 0)

end CimStore.Text

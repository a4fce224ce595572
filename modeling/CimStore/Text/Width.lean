import CimStore.Text.Ranges
import CimStore.Text.WidthRanges

/-!
# The width of a text on a terminal

`columns` counts the columns that a line of text takes: character by character, each none, one or
two. What stands beside a character does not change its width, so an emoji that is put together of
several takes as many columns as they take one by one.
-/

namespace CimStore.Text

/-- The columns of a character. -/
def charColumns (c : Char) : Nat :=
  if isIn zeroWidthRanges c then 0
  else if isIn wideRanges c then 2
  else 1

/-- The columns that a line of text takes. -/
def columns : List Char → Nat
  | [] => 0
  | c :: cs => charColumns c + columns cs

end CimStore.Text

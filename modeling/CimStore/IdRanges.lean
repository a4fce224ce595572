import CimStore.Integer

/-!
# Ranges of ids

A list of ids is shown as ranges of consecutive ids: `1-3, 7`. `idRanges` cuts the list into the
longest such ranges, without putting it in order first; `IdRange.ids` lists a range again.
-/

namespace CimStore

/-- The ids from `first` to `last`, both included. -/
structure IdRange where
  first : Int
  last : Int
  first_le_last : first ≤ last
deriving DecidableEq

namespace IdRange

def single (id : Int) : IdRange := ⟨id, id, Int.le_refl id⟩

/-- The ids of the range, ascending. -/
def ids (r : IdRange) : List Int :=
  (List.range (r.last - r.first + 1).toNat).map fun (i : Nat) => r.first + (i : Int)

/-- Puts an id in front of ranges: into the first of them if that goes on from it. -/
def cons (id : Int) : List IdRange → List IdRange
  | [] => [single id]
  | r :: rs =>
    if h : id + 1 = r.first then ⟨id, r.last, by have := r.first_le_last; omega⟩ :: rs
    else single id :: r :: rs

def text (r : IdRange) : String :=
  if r.first = r.last then formatInteger r.first
  else formatInteger r.first ++ "-" ++ formatInteger r.last

end IdRange

/-- The ids cut into the longest ranges, in order. -/
def idRanges (ids : List Int) : List IdRange := ids.foldr IdRange.cons []

def formatIdRanges (ids : List Int) : String :=
  ", ".intercalate ((idRanges ids).map IdRange.text)

end CimStore

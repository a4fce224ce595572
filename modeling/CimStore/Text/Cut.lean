/-!
# Cutting a text at a character

Names such as `Terminal.phases` and references such as `http://iec.ch/TC57/CIM100#PhaseCode.ABC`
are read by what stands before the first or after the last of a separating character.
-/

namespace CimStore.Text

/-- What stands before the first `c`; nothing if there is no `c`. -/
def beforeFirst? (c : Char) : List Char → Option (List Char)
  | [] => none
  | d :: ds => if d = c then some [] else (beforeFirst? c ds).map (d :: ·)

/-- What stands after the last `c`; nothing if there is no `c`. -/
def afterLast? (c : Char) : List Char → Option (List Char)
  | [] => none
  | d :: ds =>
    match afterLast? c ds with
    | some rest => some rest
    | none => if d = c then some ds else none

/-- What follows `lead`; nothing if the text does not start with it. -/
def afterLead? : List Char → List Char → Option (List Char)
  | [], cs => some cs
  | _ :: _, [] => none
  | d :: ds, c :: cs => if c = d then afterLead? ds cs else none

/-- The parts of a list between the separating items; one part more than separators. -/
def splitAt {α : Type} [DecidableEq α] (c : α) : List α → List (List α)
  | [] => [[]]
  | d :: ds =>
    if d = c then [] :: splitAt c ds
    else
      match splitAt c ds with
      | [] => [[d]]
      | part :: parts => (d :: part) :: parts

end CimStore.Text

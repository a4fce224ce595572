import CimStore.Attribute.Value
import CimStore.Binary.Shortest
import CimStore.Boolean
import CimStore.PhaseCode
import CimStore.Reference

/-!
# Attribute slots

A `Slot` is what one attribute of one object holds. Texts go in and come out of it:

* `Slot.write?` sets the slot from a text, or refuses the text;
* `Slot.read` gives the text back, numbers and enumerations in their standard form;
* `Slot.link?` and `Slot.links` reach the links of the two reference sorts.

Neither setting nor linking changes the sort of a slot (`sort_of_write?`, `sort_of_link?`).
-/

namespace CimStore

inductive Slot
  | string (value : Option String)
  | float (value : Option (Binary binary64))
  | integer (value : Option Integer64)
  | boolean (value : Option Bool)
  | phaseCode (value : Option PhaseCode)
  | reference (value : Reference)
  | referenceSet (value : ReferenceSet)
deriving DecidableEq

/-- The slot of an attribute without a value. -/
def AttributeSort.emptySlot : AttributeSort → Slot
  | .string => .string none
  | .float => .float none
  | .integer => .integer none
  | .boolean => .boolean none
  | .phaseCode => .phaseCode none
  | .reference => .reference .empty
  | .referenceSet => .referenceSet .empty

namespace Slot

def sort : Slot → AttributeSort
  | string _ => .string
  | float _ => .float
  | integer _ => .integer
  | boolean _ => .boolean
  | phaseCode _ => .phaseCode
  | reference _ => .reference
  | referenceSet _ => .referenceSet

/-- The value as text; nothing if there is none. A reference is read as the ids of its targets. -/
def read : Slot → Option Value
  | string v => v.map .text
  | float v => v.map fun x => .text x.format
  | integer v => v.map fun i => .text (formatInteger i.val)
  | boolean v => v.map fun b => .text (formatBoolean b)
  | phaseCode v => v.map fun p => .text p.qualified
  | reference r => r.target?.map .text
  | referenceSet s => if s.isEmpty then none else some (.texts s.ids)

/-- Sets the value from a text; nothing if the text is no value of the sort. A set gets one more
member. -/
def write? (text : String) : Slot → Option Slot
  | string _ => some (.string (some text))
  | float _ => (Binary.parse? binary64 text).map fun x => .float (some x)
  | integer _ => (parseInteger64? text).map fun i => .integer (some i)
  | boolean _ => some (.boolean (some (parseBoolean text)))
  | phaseCode _ => (PhaseCode.parse? text).map fun p => .phaseCode (some p)
  | reference r => some (.reference (r.setId text))
  | referenceSet s => some (.referenceSet (s.addId text))

/-- Links the slot to an object; nothing if it holds no reference. A set gets one more link. -/
def link? (link : Link) : Slot → Option Slot
  | reference _ => some (.reference (.linked link))
  | referenceSet s => some (.referenceSet (s.link link))
  | _ => none

/-- The ids of the targets of a reference, ascending. -/
def targets : Slot → List String
  | reference r => r.target?.toList
  | referenceSet s => s.ids
  | _ => []

/-- The objects that the slot is linked to. -/
def links : Slot → List Link
  | reference r => r.link?.toList
  | referenceSet s => s.links
  | _ => []

theorem sort_of_write? {text : String} {s t : Slot} (h : s.write? text = some t) :
    t.sort = s.sort := by
  cases s
  case float | integer | phaseCode => obtain ⟨_, -, rfl⟩ := Option.map_eq_some_iff.1 h; rfl
  all_goals exact Option.some.inj h ▸ rfl

theorem sort_of_link? {link : Link} {s t : Slot} (h : s.link? link = some t) :
    t.sort = s.sort := by
  cases s
  case reference | referenceSet => exact Option.some.inj h ▸ rfl
  all_goals exact nomatch h

end Slot

end CimStore

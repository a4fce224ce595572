import CimStore.Attribute.Slot
import CimStore.Error

/-!
# Attribute descriptors

A `Descriptor` declares one attribute: its full name `<DeclaringClass>.<label>`, the sort of its
values, and for references the classes they may point at. Through it the slot of an attribute is
set (`write`) and linked (`link`), with the failures named after the attribute.
-/

namespace CimStore

/-- The namespace of the attributes of the IEC 61970 model. -/
def cimNamespace : String := "http://iec.ch/TC57/CIM100#"

/-- The namespace of the European extensions. -/
def europeanNamespace : String := "http://iec.ch/TC57/CIM100-European#"

/-- The declaration of an attribute. -/
structure Descriptor where
  fullName : String
  sort : AttributeSort
  /-- The classes a reference may point at; none means any. -/
  targets : List String := []
  /-- An attribute that is not used is declared, but neither stored nor linked. -/
  isUsed : Bool := true
  namespaceUrl : String := cimNamespace
deriving DecidableEq, Repr

namespace Descriptor

/-- The name without the declaring class: what stands after the last point. -/
def label (d : Descriptor) : String :=
  ((Text.afterLast? '.' d.fullName.toList).map String.ofList).getD d.fullName

/-- The class that declares the attribute, which may be a superclass: what stands before the first
point. -/
def declaringClass (d : Descriptor) : String :=
  ((Text.beforeFirst? '.' d.fullName.toList).map String.ofList).getD ""

/-- An attribute goes by its label and by its full name. -/
def isNamed (d : Descriptor) (name : String) : Bool := d.label = name || d.fullName = name

def kind (d : Descriptor) : AttributeKind := d.sort.kind

def valueType (d : Descriptor) : ValueType := d.sort.valueType

/-- Whether a reference may point at an object of the class. -/
def admits (d : Descriptor) (cimType : String) : Bool :=
  d.targets.isEmpty || d.targets.contains cimType

/-- Sets a slot of the attribute from a text. -/
def write (d : Descriptor) (text : String) (slot : Slot) : Except Error Slot :=
  match slot.write? text with
  | some slot => .ok slot
  | none => .error (.malformedValue d.fullName text)

/-- Links a slot of the attribute. The class of the target is looked at first. -/
def link (d : Descriptor) (link : Link) (slot : Slot) : Except Error Slot :=
  if d.admits link.cimType then
    match slot.link? link with
    | some slot => .ok slot
    | none => .error (.notAReference d.fullName)
  else .error (.typeMismatch d.fullName d.targets link.cimType)

theorem sort_of_write {d : Descriptor} {text : String} {s t : Slot} (h : d.write text s = .ok t) :
    t.sort = s.sort := by
  rw [write] at h
  split at h
  · rename_i hs
    obtain rfl := Except.ok.inj h
    exact Slot.sort_of_write? hs
  · exact nomatch h

theorem sort_of_link {d : Descriptor} {l : Link} {s t : Slot} (h : d.link l s = .ok t) :
    t.sort = s.sort := by
  rw [link] at h
  split at h
  · split at h
    · rename_i hs
      obtain rfl := Except.ok.inj h
      exact Slot.sort_of_link? hs
    · exact nomatch h
  · exact nomatch h

end Descriptor

end CimStore

import CimStore.Proofs.Accessors

/-!
# Attribute tables and the fields they name

A table is right if the getter and the setter of each attribute are of one field, and no field has
two attributes. Then a record is an identity with slots, one for each attribute, and an access of an
attribute is one of its slot:

* `Attribute.Wired`: the attribute is the slot at a place;
* `Attribute.wired_text`, `Attribute.wired_reference`, `Attribute.wired_referenceSet`: when it is;
* `RecordClass.Wiring`: all attributes of a class are, and there is nothing else in a record;
* `RecordClass.nonempty_wiring_of_standard`: the standard classes.
-/

namespace CimStore

/-! ## Accesses of records -/

/-- An access of an attribute, as a program on the record. -/
def Access.programOn {σ : Type} (access : Access) (a : Attribute σ) :
    ExceptT Error (StateM σ) Unit :=
  match access with
  | set text => a.writeText text
  | link l => a.writeRef l

namespace RecordClass

variable (c : RecordClass)

/-- The access made in place. -/
def perform (access : Access) (name : String) (r : c.Record) : Except Error Unit × c.Record :=
  match access with
  | .set text => (c.setAttribute name text).run.run r
  | .link l => (c.setAttributeRef name l).run.run r

theorem perform_eq (access : Access) (name : String) (r : c.Record) : c.perform access name r =
    match c.table.find? name with
    | none => (.error (.unknownAttribute c.table.className name), r)
    | some a => (access.programOn a).run.run r := by
  cases access
  all_goals
    unfold perform
    dsimp only [setAttribute, setAttributeRef, AttributeTable.get]
    cases c.table.find? name <;> rfl

end RecordClass

/-! ## Attributes that are slots -/

/-- The naming attributes as slots. -/
def IdentifiedObject.slots (x : IdentifiedObject) : List Slot :=
  [.string x.mrid, .string x.name, .string x.description, .string x.shortName]

theorem IdentifiedObject.slots_append_inj {x y : IdentifiedObject} {ss ts : List Slot} :
    x.slots ++ ss = y.slots ++ ts ↔ x = y ∧ ss = ts := by
  cases x
  cases y
  simp [slots, and_assoc]

section Wired

variable {σ : Type}

/-- The attribute is the slot at a place, if records are seen as an identity with slots: it is read
off this slot, and an access of it is one of this slot. -/
structure Attribute.Wired (a : Attribute σ) (base : σ → ObjectBase) (slots : σ → List Slot)
    (i : Nat) : Prop where
  read : ∀ r, ∃ s, (slots r)[i]? = some s ∧ s.sort = a.about.sort ∧ a.read r = s.read ∧
    a.links r = s.links
  perform : ∀ (access : Access) (r : σ) (s : Slot), (slots r)[i]? = some s →
    ((access.programOn a).run.run r).1 = (settled (access.slot a.about s) s).1 ∧
    slots ((access.programOn a).run.run r).2 =
      (slots r).set i (settled (access.slot a.about s) s).2 ∧
    base ((access.programOn a).run.run r).2 = base r

/-- What is borrowed is the slot at a place. -/
structure Borrow.IsSlot {α : Type} (p : Borrow σ α) (base : σ → ObjectBase)
    (slots : σ → List Slot) (i : Nat) (slot : α → Slot) : Prop where
  get : ∀ r, (slots r)[i]? = some (slot (p.get r)) := by intros; rfl
  put : ∀ x r, slots (p.put x r) = (slots r).set i (slot x) := by intros; rfl
  base : ∀ x r, base (p.put x r) = base r := by intros; rfl

/-- Values of a sort that are set from a text and read as one. -/
structure TextForm (α : Type) where
  sort : AttributeSort
  slot : Option α → Slot
  text : Option α → Option String
  parse : String → Option α
  sort_slot : ∀ v, (slot v).sort = sort
  read : ∀ v, (slot v).read = (text v).map .text
  links : ∀ v, (slot v).links = []
  write? : ∀ t v, (slot v).write? t = (parse t).map fun x => slot (some x)
  link? : ∀ l v, (slot v).link? l = none

namespace TextForm

def string : TextForm String where
  sort := .string
  slot := .string
  text := stringText
  parse := some
  sort_slot _ := rfl
  read _ := rfl
  links _ := rfl
  write? _ _ := rfl
  link? _ _ := rfl

def float : TextForm (Binary binary64) where
  sort := .float
  slot := .float
  text := floatText
  parse := Binary.parse? binary64
  sort_slot _ := rfl
  read v := by cases v <;> rfl
  links _ := rfl
  write? _ _ := rfl
  link? _ _ := rfl

def integer : TextForm Integer64 where
  sort := .integer
  slot := .integer
  text := integerText
  parse := parseInteger64?
  sort_slot _ := rfl
  read v := by cases v <;> rfl
  links _ := rfl
  write? _ _ := rfl
  link? _ _ := rfl

def boolean : TextForm Bool where
  sort := .boolean
  slot := .boolean
  text := booleanText
  parse text := some (parseBoolean text)
  sort_slot _ := rfl
  read v := by cases v <;> rfl
  links _ := rfl
  write? _ _ := rfl
  link? _ _ := rfl

def phaseCode : TextForm PhaseCode where
  sort := .phaseCode
  slot := .phaseCode
  text := phaseCodeText
  parse := PhaseCode.parse?
  sort_slot _ := rfl
  read v := by cases v <;> rfl
  links _ := rfl
  write? _ _ := rfl
  link? _ _ := rfl

end TextForm

variable {base : σ → ObjectBase} {slots : σ → List Slot} {i : Nat} {a : Attribute σ}

/-- A slot that is put where it is changes nothing. -/
theorem set_of_getElem? {ss : List Slot} {s : Slot} (h : ss[i]? = some s) : ss.set i s = ss := by
  obtain ⟨hi, rfl⟩ := List.getElem?_eq_some_iff.mp h
  exact List.set_getElem_self hi

namespace Attribute

/-- An attribute is wired if its getter and its setter are of one part of the record, and this part
is the slot. -/
theorem wired_text {α : Type} (form : TextForm α) {p : Borrow σ (Option α)}
    {get : σ → Option String}
    (haccessor : a.accessor = .text get fun text => p.run (overwrite form.parse text))
    (hget : ∀ r, get r = form.text (p.get r)) (hsort : a.about.sort = form.sort)
    (h : p.IsSlot base slots i form.slot) : a.Wired base slots i where
  read r := by
    refine ⟨form.slot (p.get r), h.get r, (form.sort_slot _).trans hsort.symm, ?_, ?_⟩
    · rw [Attribute.read, haccessor, form.read, ← hget]
    · rw [Attribute.links, haccessor, form.links]
  perform access r s hs := by
    obtain rfl : form.slot (p.get r) = s := Option.some.inj ((h.get r).symm.trans hs)
    cases access with
    | set text =>
      have hrun : ((Access.set text).programOn a).run.run r =
          (form.parse text).elim
            (.error (.malformedValue a.about.fullName text), p.put (p.get r) r)
            fun x => (.ok (), p.put (some x) r) := by
        show (a.writeText text).run.run r = _
        unfold writeText
        rw [haccessor]
        dsimp only [Borrow.run, overwrite]
        cases form.parse text <;> rfl
      rw [hrun]
      simp only [Access.slot, Descriptor.write, form.write?]
      -- If the text does not convert, the part is put back as it was.
      cases form.parse text with
      | none => exact ⟨rfl, h.put .., h.base ..⟩
      | some x => exact ⟨rfl, h.put .., h.base ..⟩
    | link l =>
      have hrun : ((Access.link l).programOn a).run.run r =
          if a.about.admits l.cimType then (.error (.notAReference a.about.fullName), r)
          else (.error (.typeMismatch a.about.fullName a.about.targets l.cimType), r) := by
        show (a.writeRef l).run.run r = _
        unfold writeRef
        rw [haccessor]
        cases a.about.admits l.cimType <;> rfl
      have hsame := (set_of_getElem? (h.get r)).symm
      rw [hrun]
      simp only [Access.slot, Descriptor.link, form.link?]
      split
      · exact ⟨rfl, hsame, rfl⟩
      · exact ⟨rfl, hsame, rfl⟩

/-- A reference of either kind takes every text, and the links to objects of admitted classes. -/
private theorem wired_modify {α : Type} {p : Borrow σ α} {slot : α → Slot}
    (h : p.IsSlot base slots i slot) (add : String → α → α) (join : Link → α → α)
    (hsort : ∀ x, (slot x).sort = a.about.sort)
    (hread : ∀ r, a.read r = (slot (p.get r)).read ∧ a.links r = (slot (p.get r)).links)
    (hadd : ∀ text x, (slot x).write? text = some (slot (add text x)))
    (hjoin : ∀ l x, (slot x).link? l = some (slot (join l x)))
    (htext : ∀ text r, (a.writeText text).run.run r = (.ok (), p.modify (add text) r))
    (hlink : ∀ l r, (a.writeRef l).run.run r =
      if a.about.admits l.cimType then (.ok (), p.modify (join l) r)
      else (.error (.typeMismatch a.about.fullName a.about.targets l.cimType), r)) :
    a.Wired base slots i where
  read r := ⟨slot (p.get r), h.get r, hsort _, hread r⟩
  perform access r s hs := by
    obtain rfl : slot (p.get r) = s := Option.some.inj ((h.get r).symm.trans hs)
    cases access with
    | set text =>
      have hrun : ((Access.set text).programOn a).run.run r = _ := htext text r
      rw [hrun]
      simp only [Access.slot, Descriptor.write, hadd]
      exact ⟨rfl, h.put .., h.base ..⟩
    | link l =>
      have hrun : ((Access.link l).programOn a).run.run r = _ := hlink l r
      rw [hrun]
      simp only [Access.slot, Descriptor.link, hjoin]
      split
      · exact ⟨rfl, h.put .., h.base ..⟩
      · exact ⟨rfl, (set_of_getElem? (h.get r)).symm, rfl⟩

theorem wired_reference {p : Borrow σ Reference} {get : σ → Reference}
    (haccessor : a.accessor = .reference get p) (hget : ∀ r, get r = p.get r)
    (hsort : a.about.sort = .reference) (h : p.IsSlot base slots i .reference) :
    a.Wired base slots i := by
  refine wired_modify h (fun text x => x.setId text) (fun l _ => .linked l) (fun _ => hsort.symm)
    (fun r => ?_) (fun _ _ => rfl) (fun _ _ => rfl) (fun text r => ?_) fun l r => ?_
  · rw [Attribute.read, Attribute.links, haccessor, ← hget]
    exact ⟨rfl, rfl⟩
  · unfold writeText
    rw [haccessor]
    rfl
  · unfold writeRef
    rw [haccessor]
    cases a.about.admits l.cimType <;> rfl

theorem wired_referenceSet {p : Borrow σ ReferenceSet} {get : σ → ReferenceSet}
    (haccessor : a.accessor = .referenceSet get p) (hget : ∀ r, get r = p.get r)
    (hsort : a.about.sort = .referenceSet) (h : p.IsSlot base slots i .referenceSet) :
    a.Wired base slots i := by
  refine wired_modify h (fun text x => x.addId text) (fun l x => x.link l) (fun _ => hsort.symm)
    (fun r => ?_) (fun _ _ => rfl) (fun _ _ => rfl) (fun text r => ?_) fun l r => ?_
  · rw [Attribute.read, Attribute.links, haccessor, ← hget]
    exact ⟨rfl, rfl⟩
  · unfold writeText
    rw [haccessor]
    rfl
  · unfold writeRef
    rw [haccessor]
    cases a.about.admits l.cimType <;> rfl

end Attribute

/-- The attributes are the slots from a place on. -/
inductive Wires (base : σ → ObjectBase) (slots : σ → List Slot) : Nat → List (Attribute σ) → Prop
  | nil {i : Nat} : Wires base slots i []
  | cons {i : Nat} {a : Attribute σ} {as : List (Attribute σ)} (head : a.Wired base slots i)
      (tail : Wires base slots (i + 1) as) : Wires base slots i (a :: as)

theorem Wires.wired {n : Nat} {as : List (Attribute σ)} (h : Wires base slots n as) {j : Nat}
    (hj : as[j]? = some a) : a.Wired base slots (n + j) := by
  induction h generalizing j with
  | nil => exact nomatch hj
  | @cons n b as head tail ih =>
    cases j with
    | zero =>
      obtain rfl : b = a := Option.some.inj hj
      exact head
    | succ j =>
      have hnext := ih hj
      rwa [Nat.add_assoc, Nat.add_comm 1 j] at hnext

/-- The naming attributes come first in every class. -/
theorem wires_identifiedObject {identified : Borrow σ IdentifiedObject} {rest : σ → List Slot}
    {as : List (Attribute σ)} (hrest : Wires base slots 4 as)
    (hget : ∀ r, slots r = (identified.get r).slots ++ rest r := by intros; rfl)
    (hput : ∀ x r, slots (identified.put x r) = x.slots ++ rest r := by intros; rfl)
    (hbase : ∀ x r, base (identified.put x r) = base r := by intros; rfl) :
    Wires base slots 0 (identifiedObjectAttributes identified ++ as) := by
  have hslot : ∀ {i : Nat} {q : Borrow IdentifiedObject (Option String)},
      q.IsSlot (fun _ => {}) IdentifiedObject.slots i .string →
        (identified.part q).IsSlot base slots i .string := by
    intro i q hq
    have hlength : ∀ r, i < (identified.get r).slots.length := fun r =>
      (List.getElem?_eq_some_iff.mp (hq.get (identified.get r))).1
    refine ⟨fun r => ?_, fun v r => ?_, fun v r => hbase ..⟩
    · rw [hget, List.getElem?_append_left (hlength r)]
      exact hq.get _
    · rw [hget r, List.set_append_left _ _ (hlength r), ← hq.put]
      exact hput ..
  exact .cons (Attribute.wired_text .string rfl (fun _ => rfl) rfl (hslot {})) <|
    .cons (Attribute.wired_text .string rfl (fun _ => rfl) rfl (hslot {})) <|
    .cons (Attribute.wired_text .string rfl (fun _ => rfl) rfl (hslot {})) <|
    .cons (Attribute.wired_text .string rfl (fun _ => rfl) rfl (hslot {})) hrest

end Wired

/-! ## The standard classes -/

/-- The records of a class, seen as an identity with slots. -/
structure RecordClass.Wiring (c : RecordClass) where
  naming : c.Record → IdentifiedObject
  /-- The slots that follow those of the naming attributes. -/
  own : c.Record → List Slot
  wires : Wires c.base.get (fun r => (naming r).slots ++ own r) 0 c.table.attributes
  /-- There is nothing else in a record. -/
  ext : ∀ r r', c.base.get r = c.base.get r' → naming r = naming r' → own r = own r' → r = r'
  length_slots : ∀ r, ((naming r).slots ++ own r).length = c.table.attributes.length := by
    intros; rfl
  className : c.table.className = c.name := by rfl

namespace RecordClass

open Attribute

def baseVoltageWiring : baseVoltage.Wiring where
  naming := BaseVoltage.identified
  own (r : BaseVoltage) := [.float r.nominalVoltage]
  wires := wires_identifiedObject <|
    .cons (wired_text .float rfl (fun _ => rfl) rfl {}) .nil
  ext := by rintro ⟨⟩ ⟨⟩ ⟨⟩ ⟨⟩ ⟨⟩; rfl

def substationWiring : substation.Wiring where
  naming := Substation.identified
  own (r : Substation) := [.reference r.region]
  wires := wires_identifiedObject <|
    .cons (wired_reference rfl (fun _ => rfl) rfl {}) .nil
  ext := by rintro ⟨⟩ ⟨⟩ ⟨⟩ ⟨⟩ ⟨⟩; rfl

def voltageLevelWiring : voltageLevel.Wiring where
  naming := VoltageLevel.identified
  own (r : VoltageLevel) := [.float r.highVoltageLimit, .float r.lowVoltageLimit,
    .reference r.substation, .reference r.baseVoltage]
  wires := wires_identifiedObject <|
    .cons (wired_text .float rfl (fun _ => rfl) rfl {}) <|
    .cons (wired_text .float rfl (fun _ => rfl) rfl {}) <|
    .cons (wired_reference rfl (fun _ => rfl) rfl {}) <|
    .cons (wired_reference rfl (fun _ => rfl) rfl {}) .nil
  ext := by rintro ⟨⟩ ⟨⟩ ⟨⟩ ⟨⟩ ⟨⟩; rfl

def connectivityNodeWiring : connectivityNode.Wiring where
  naming := ConnectivityNode.identified
  own (r : ConnectivityNode) := [.reference r.container, .referenceSet r.terminals]
  wires := wires_identifiedObject <|
    .cons (wired_reference rfl (fun _ => rfl) rfl {}) <|
    .cons (wired_referenceSet rfl (fun _ => rfl) rfl {}) .nil
  ext := by rintro ⟨⟩ ⟨⟩ ⟨⟩ ⟨⟩ ⟨⟩; rfl

def terminalWiring : terminal.Wiring where
  naming := Terminal.identified
  own (r : Terminal) := [.integer r.sequenceNumber, .boolean r.connected, .phaseCode r.phases,
    .reference r.conductingEquipment, .reference r.connectivityNode, .reference r.topologicalNode]
  wires := wires_identifiedObject <|
    .cons (wired_text .integer rfl (fun _ => rfl) rfl {}) <|
    .cons (wired_text .boolean rfl (fun _ => rfl) rfl {}) <|
    .cons (wired_text .phaseCode rfl (fun _ => rfl) rfl {}) <|
    .cons (wired_reference rfl (fun _ => rfl) rfl {}) <|
    .cons (wired_reference rfl (fun _ => rfl) rfl {}) <|
    .cons (wired_reference rfl (fun _ => rfl) rfl {}) .nil
  ext := by rintro ⟨⟩ ⟨⟩ ⟨⟩ ⟨⟩ ⟨⟩; rfl

def busbarSectionWiring : busbarSection.Wiring where
  naming := BusbarSection.identified
  own (r : BusbarSection) := [.boolean r.aggregate, .reference r.equipmentContainer,
    .reference r.baseVoltage, .float r.ipMax]
  wires := wires_identifiedObject <|
    .cons (wired_text .boolean rfl (fun _ => rfl) rfl {}) <|
    .cons (wired_reference rfl (fun _ => rfl) rfl {}) <|
    .cons (wired_reference rfl (fun _ => rfl) rfl {}) <|
    .cons (wired_text .float rfl (fun _ => rfl) rfl {}) .nil
  ext := by rintro ⟨⟩ ⟨⟩ ⟨⟩ ⟨⟩ ⟨⟩; rfl

def acLineSegmentWiring : acLineSegment.Wiring where
  naming := ACLineSegment.identified
  own (r : ACLineSegment) := [.boolean r.aggregate, .reference r.equipmentContainer,
    .reference r.baseVoltage, .float r.length, .float r.r, .float r.x, .float r.bch, .float r.gch]
  wires := wires_identifiedObject <|
    .cons (wired_text .boolean rfl (fun _ => rfl) rfl {}) <|
    .cons (wired_reference rfl (fun _ => rfl) rfl {}) <|
    .cons (wired_reference rfl (fun _ => rfl) rfl {}) <|
    .cons (wired_text .float rfl (fun _ => rfl) rfl {}) <|
    .cons (wired_text .float rfl (fun _ => rfl) rfl {}) <|
    .cons (wired_text .float rfl (fun _ => rfl) rfl {}) <|
    .cons (wired_text .float rfl (fun _ => rfl) rfl {}) <|
    .cons (wired_text .float rfl (fun _ => rfl) rfl {}) .nil
  ext := by rintro ⟨⟩ ⟨⟩ ⟨⟩ ⟨⟩ ⟨⟩; rfl

def operationalLimitSetWiring : operationalLimitSet.Wiring where
  naming := OperationalLimitSet.identified
  own (r : OperationalLimitSet) := [.reference r.terminal, .reference r.equipment]
  wires := wires_identifiedObject <|
    .cons (wired_reference rfl (fun _ => rfl) rfl {}) <|
    .cons (wired_reference rfl (fun _ => rfl) rfl {}) .nil
  ext := by rintro ⟨⟩ ⟨⟩ ⟨⟩ ⟨⟩ ⟨⟩; rfl

def currentLimitWiring : currentLimit.Wiring where
  naming := CurrentLimit.identified
  own (r : CurrentLimit) := [.reference r.limitSet, .float r.value]
  wires := wires_identifiedObject <|
    .cons (wired_reference rfl (fun _ => rfl) rfl {}) <|
    .cons (wired_text .float rfl (fun _ => rfl) rfl {}) .nil
  ext := by rintro ⟨⟩ ⟨⟩ ⟨⟩ ⟨⟩ ⟨⟩; rfl

def topologicalNodeWiring : topologicalNode.Wiring where
  naming := TopologicalNode.identified
  own (r : TopologicalNode) := [.reference r.baseVoltage, .reference r.container,
    .referenceSet r.terminal]
  wires := wires_identifiedObject <|
    .cons (wired_reference rfl (fun _ => rfl) rfl {}) <|
    .cons (wired_reference rfl (fun _ => rfl) rfl {}) <|
    .cons (wired_referenceSet rfl (fun _ => rfl) rfl {}) .nil
  ext := by rintro ⟨⟩ ⟨⟩ ⟨⟩ ⟨⟩ ⟨⟩; rfl

def topologicalIslandWiring : topologicalIsland.Wiring where
  naming := TopologicalIsland.identified
  own (r : TopologicalIsland) := [.reference r.angleRefNode, .referenceSet r.nodes]
  wires := wires_identifiedObject <|
    .cons (wired_reference rfl (fun _ => rfl) rfl {}) <|
    .cons (wired_referenceSet rfl (fun _ => rfl) rfl {}) .nil
  ext := by rintro ⟨⟩ ⟨⟩ ⟨⟩ ⟨⟩ ⟨⟩; rfl

/-- **Every standard class is wired**: each attribute reads and changes a field of its own, and each
field but the identity is one of an attribute. -/
theorem nonempty_wiring_of_standard {c : RecordClass} (h : c ∈ standard) : Nonempty c.Wiring := by
  simp only [standard, List.mem_cons, List.not_mem_nil, or_false] at h
  rcases h with rfl | rfl | rfl | rfl | rfl | rfl | rfl | rfl | rfl | rfl | rfl
  · exact ⟨baseVoltageWiring⟩
  · exact ⟨substationWiring⟩
  · exact ⟨voltageLevelWiring⟩
  · exact ⟨connectivityNodeWiring⟩
  · exact ⟨terminalWiring⟩
  · exact ⟨busbarSectionWiring⟩
  · exact ⟨acLineSegmentWiring⟩
  · exact ⟨operationalLimitSetWiring⟩
  · exact ⟨currentLimitWiring⟩
  · exact ⟨topologicalNodeWiring⟩
  · exact ⟨topologicalIslandWiring⟩

end RecordClass

end CimStore

import CimStore.Proofs.Attributes

/-!
# Attributes that are set and linked in place

An object is changed in place, one attribute by name at a time, and a change can fail. Nothing of a
change that failed may stay behind, and one that is made may touch nothing else.

* `Descriptor.assign`, `Descriptor.attach`: the two changes as programs on the slot, which keeps
  what they have written also when they fail;
* `Access.perform_eq`: a program that fails leaves the object as it was, and one that ends leaves
  what `Object.set` and `Object.link` give;
* `Descriptor.refusal?`: the texts and the targets that an attribute refuses, and why;
* `Object.changedOnly_replace`: an access changes the attribute of the name and no other;
* `Slot.write?_read`: the text of a value is taken for that very value;
* `Object.accessible`: all this for every object of a class with distinct labels.
-/

namespace CimStore

/-! ## Changes in place -/

namespace Descriptor

/-- Overwrites the slot with a converted value, if there is one. -/
def overwrite {α : Type} (d : Descriptor) (text : String) (make : α → Slot) :
    Option α → ExceptT Error (StateM Slot) Unit
  | some a => set (make a)
  | none => throw (.malformedValue d.fullName text)

/-- Sets the slot in place. What has to be converted is converted before the slot is
overwritten. -/
def assign (d : Descriptor) (text : String) : ExceptT Error (StateM Slot) Unit := do
  match ← get with
  | .string _ => set (Slot.string (some text))
  | .float _ => d.overwrite text (.float ∘ some) (Binary.parse? binary64 text)
  | .integer _ => d.overwrite text (.integer ∘ some) (parseInteger64? text)
  | .boolean _ => set (Slot.boolean (some (parseBoolean text)))
  | .phaseCode _ => d.overwrite text (.phaseCode ∘ some) (PhaseCode.parse? text)
  | .reference r => set (Slot.reference (r.setId text))
  | .referenceSet s => set (Slot.referenceSet (s.addId text))

/-- Links the slot in place. -/
def attach (d : Descriptor) (l : Link) : ExceptT Error (StateM Slot) Unit := do
  unless d.admits l.cimType do
    throw (.typeMismatch d.fullName d.targets l.cimType)
  match ← get with
  | .reference _ => set (Slot.reference (.linked l))
  | .referenceSet s => set (Slot.referenceSet (s.link l))
  | _ => throw (.notAReference d.fullName)

end Descriptor

/-- A change of one attribute. -/
inductive Access
  | set (text : String)
  | link (target : Link)
deriving DecidableEq

/-- Runs a program on the slot of the attribute of a name. What it leaves in the slot is in the
object afterwards, also when it fails. -/
def Object.within (name : String) (p : Descriptor → ExceptT Error (StateM Slot) Unit) (o : Object) :
    Except Error Unit × Object :=
  match o.field? name with
  | none => (.error (.unknownAttribute o.cimType name), o)
  | some f =>
    let (result, slot) := (p f.about).run.run f.slot
    (result, o.replace name slot)

namespace Access

def program (a : Access) (d : Descriptor) : ExceptT Error (StateM Slot) Unit :=
  match a with
  | set text => d.assign text
  | link l => d.attach l

/-- The slot that an access gives. -/
def slot (a : Access) (d : Descriptor) (s : Slot) : Except Error Slot :=
  match a with
  | set text => d.write text s
  | link l => d.link l s

/-- The object that an access gives. -/
def result (a : Access) (name : String) (o : Object) : Except Error Object :=
  match a with
  | set text => o.set name text
  | link l => o.link name l

/-- The access made in place. -/
def perform (a : Access) (name : String) (o : Object) : Except Error Unit × Object :=
  o.within name a.program

end Access

/-! ## What a change in place leaves -/

/-- What is left of a state by a program with the result `r`: what was made of it, or itself. -/
def settled {σ : Type} (r : Except Error σ) (s : σ) : Except Error Unit × σ :=
  match r with
  | .ok t => (.ok (), t)
  | .error e => (.error e, s)

namespace Descriptor

theorem overwrite_eq {α : Type} {d : Descriptor} {text : String} {make : α → Slot} {a? : Option α}
    {s : Slot} (h : s.write? text = a?.map make) :
    (d.overwrite text make a?).run.run s = settled (d.write text s) s := by
  rw [write, h]
  cases a? <;> rfl

theorem assign_eq (d : Descriptor) (text : String) (s : Slot) :
    (d.assign text).run.run s = settled (d.write text s) s := by
  cases s with
  | string | boolean | reference | referenceSet => rfl
  | float | integer | phaseCode => exact overwrite_eq rfl

theorem attach_eq (d : Descriptor) (l : Link) (s : Slot) :
    (d.attach l).run.run s = settled (d.link l s) s := by
  unfold attach link
  by_cases hadmits : d.admits l.cimType
  · simp only [hadmits, if_true]
    cases s <;> rfl
  · simp only [hadmits]
    rfl

end Descriptor

namespace Access

theorem program_eq (a : Access) (d : Descriptor) (s : Slot) :
    (a.program d).run.run s = settled (a.slot d s) s :=
  match a with
  | set text => d.assign_eq text s
  | link l => d.attach_eq l s

theorem result_eq (a : Access) (name : String) (o : Object) : a.result name o =
    match o.field? name with
    | none => .error (.unknownAttribute o.cimType name)
    | some f => (a.slot f.about f.slot).map (o.replace name) := by
  cases a with
  | set text =>
    unfold result Object.set Object.field slot
    cases o.field? name with
    | none => rfl
    | some f => cases h : f.about.write text f.slot <;> simp [bind, Except.bind, h] <;> rfl
  | link l =>
    unfold result Object.link Object.field slot
    cases o.field? name with
    | none => rfl
    | some f => cases h : f.about.link l f.slot <;> simp [bind, Except.bind, h] <;> rfl

theorem result_of_field? {o : Object} {name : String} {f : Field} (h : o.field? name = some f)
    (a : Access) : a.result name o = (a.slot f.about f.slot).map (o.replace name) := by
  rw [result_eq, h]

/-- **A change that fails leaves the whole object as it was**, and one that ends leaves what it is
to give. -/
theorem perform_eq (a : Access) (name : String) (o : Object) :
    a.perform name o = settled (a.result name o) o := by
  rw [result_eq, perform, Object.within]
  cases hf : o.field? name with
  | none => rfl
  | some f =>
    simp only [program_eq]
    cases a.slot f.about f.slot with
    | ok s => rfl
    | error e =>
      have hsame : o.replace name f.slot = o :=
        Object.ext_fields rfl rfl rfl rfl (Field.replace_self hf)
      exact congrArg (Prod.mk _) hsame

end Access

/-! ## What is refused -/

/-- Whether the text is that of a value of the sort. -/
def AttributeSort.converts (sort : AttributeSort) (text : String) : Bool :=
  match sort with
  | .float => (Binary.parse? binary64 text).isSome
  | .integer => (parseInteger64? text).isSome
  | .phaseCode => (PhaseCode.parse? text).isSome
  | .string | .boolean | .reference | .referenceSet => true

/-- Why an attribute refuses an access. The class of a target is looked at first. -/
def Descriptor.refusal? (d : Descriptor) : Access → Option Error
  | .set text => if d.sort.converts text then none else some (.malformedValue d.fullName text)
  | .link l =>
    if d.admits l.cimType then
      if d.kind.isReference then none else some (.notAReference d.fullName)
    else some (.typeMismatch d.fullName d.targets l.cimType)

namespace Slot

theorem isSome_write? (s : Slot) (text : String) :
    (s.write? text).isSome = s.sort.converts text := by
  cases s with
  | string | boolean | reference | referenceSet => rfl
  | float | integer | phaseCode => exact Option.isSome_map

theorem isSome_link? (s : Slot) (l : Link) : (s.link? l).isSome = s.sort.kind.isReference := by
  cases s <;> rfl

/-- **The text of a value is taken for that very value.** -/
theorem write?_read {s : Slot} (hkind : s.sort.kind.isReference = false) {v : Value}
    (h : s.read = some v) : ∃ text, v = .text text ∧ s.write? text = some s := by
  cases s with
  | reference | referenceSet => exact nomatch hkind
  | string x =>
    obtain ⟨text, rfl, rfl⟩ := Option.map_eq_some_iff.mp h
    exact ⟨text, rfl, rfl⟩
  | float x =>
    obtain ⟨x, rfl, rfl⟩ := Option.map_eq_some_iff.mp h
    exact ⟨_, rfl, by rw [write?, Binary.parse?_format binary64_isProper, Option.map_some]⟩
  | integer i =>
    obtain ⟨i, rfl, rfl⟩ := Option.map_eq_some_iff.mp h
    exact ⟨_, rfl, by rw [write?, parseInteger64?_formatInteger, Option.map_some]⟩
  | boolean b =>
    obtain ⟨b, rfl, rfl⟩ := Option.map_eq_some_iff.mp h
    exact ⟨_, rfl, by rw [write?, parseBoolean_formatBoolean]⟩
  | phaseCode p =>
    obtain ⟨p, rfl, rfl⟩ := Option.map_eq_some_iff.mp h
    exact ⟨_, rfl, by rw [write?, PhaseCode.parse?_qualified, Option.map_some]⟩

end Slot

/-- **An access of a slot fails if and only if the attribute refuses it**, whatever the slot
holds. -/
theorem Access.slot_cases {a : Access} {d : Descriptor} {s : Slot} (hs : s.sort = d.sort) :
    (∃ e, d.refusal? a = some e ∧ a.slot d s = .error e) ∨
      d.refusal? a = none ∧ ∃ t, a.slot d s = .ok t ∧ t.sort = d.sort := by
  cases a with
  | set text =>
    have hsome := hs ▸ s.isSome_write? text
    simp only [slot, Descriptor.write, Descriptor.refusal?]
    cases hw : s.write? text with
    | none =>
      rw [hw] at hsome
      exact .inl ⟨_, if_neg (by simp [← hsome]), rfl⟩
    | some t =>
      rw [hw] at hsome
      exact .inr ⟨if_pos hsome.symm, t, rfl, (Slot.sort_of_write? hw).trans hs⟩
  | link l =>
    have hsome := hs ▸ s.isSome_link? l
    simp only [slot, Descriptor.link, Descriptor.refusal?, Descriptor.kind]
    by_cases hadmits : d.admits l.cimType
    · rw [if_pos hadmits, if_pos hadmits]
      cases hl : s.link? l with
      | none =>
        rw [hl] at hsome
        exact .inl ⟨_, if_neg (by simp [← hsome]), rfl⟩
      | some t =>
        rw [hl] at hsome
        exact .inr ⟨if_pos hsome.symm, t, rfl, (Slot.sort_of_link? hl).trans hs⟩
    · rw [if_neg hadmits, if_neg hadmits]
      exact .inl ⟨_, rfl, rfl⟩

/-! ## What is changed -/

namespace Object

variable {o x : Object} {d : Descriptor} {name : String}

/-- The object is as before, save for the attributes that were touched. -/
structure ChangedOnly (o : Object) (touched : Descriptor → Prop) (x : Object) : Prop where
  cls : x.cls = o.cls
  id : x.id = o.id
  rdfid : x.rdfid = o.rdfid
  model : x.model = o.model
  /-- The others have their values and their links, under all their names. -/
  others : ∀ e ∈ o.cls.attributes, ¬touched e → ∀ name, e.isNamed name = true →
    x.get name = o.get name ∧ x.links name = o.links name

namespace ChangedOnly

variable {p q : Descriptor → Prop} {y : Object}

theorem refl (o : Object) (p : Descriptor → Prop) : o.ChangedOnly p o :=
  ⟨rfl, rfl, rfl, rfl, fun _ _ _ _ _ => ⟨rfl, rfl⟩⟩

theorem mono (h : o.ChangedOnly p x) (hpq : ∀ e ∈ o.cls.attributes, p e → q e) :
    o.ChangedOnly q x :=
  { h with others := fun e he hq => h.others e he fun hp => hq (hpq e he hp) }

theorem trans (h : o.ChangedOnly p x) (h' : x.ChangedOnly q y) :
    o.ChangedOnly (fun e => p e ∨ q e) y where
  cls := h'.cls.trans h.cls
  id := h'.id.trans h.id
  rdfid := h'.rdfid.trans h.rdfid
  model := h'.model.trans h.model
  others := fun e he hnot name hname => by
    have hx := h.others e he (fun hp => hnot (.inl hp)) name hname
    have hy := h'.others e (h.cls ▸ he) (fun hq => hnot (.inr hq)) name hname
    exact ⟨hy.1.trans hx.1, hy.2.trans hx.2⟩

end ChangedOnly

theorem exists_field_of_mem (hd : d ∈ o.cls.attributes) : ∃ f ∈ o.fields, f.about = d :=
  List.mem_map.mp (o.fields_about ▸ hd)

theorem links_of_field? {f : Field} (h : o.field? name = some f) :
    o.links name = .ok f.slot.links := by
  simp [links, field_eq_ok_iff.mpr h, bind, Except.bind, pure, Except.pure]

theorem changedOnly_replace (h : o.cls.Labelled) (name : String) (slot : Slot) :
    o.ChangedOnly (·.isNamed name = true) (o.replace name slot) where
  cls := rfl
  id := rfl
  rdfid := rfl
  model := rfl
  others := by
    intro e he hother name' hname'
    obtain ⟨f, hf, rfl⟩ := exists_field_of_mem he
    have hkept : f ∈ (o.replace name slot).fields := by
      rw [replace_fields h]
      exact List.mem_map.mpr ⟨f, hf, if_neg hother⟩
    have hbefore : o.field? name' = some f := field?_of_mem h hf hname'
    have hafter : (o.replace name slot).field? name' = some f := field?_of_mem h hkept hname'
    rw [get_of_field? hafter, get_of_field? hbefore, links_of_field? hafter,
      links_of_field? hbefore]
    exact ⟨rfl, rfl⟩

/-- **An access by name touches the attributes of the name only**, whether it fails or not. -/
theorem changedOnly_perform (h : o.cls.Labelled) (a : Access) (name : String) :
    o.ChangedOnly (·.isNamed name = true) (a.perform name o).2 := by
  rw [Access.perform_eq, Access.result_eq]
  cases o.field? name with
  | none => exact .refl ..
  | some f =>
    cases hslot : a.slot f.about f.slot with
    | error e => simpa [hslot, Except.map, settled] using ChangedOnly.refl ..
    | ok t => simpa [hslot, Except.map, settled] using changedOnly_replace h name t

/-- The accesses of a history, one after the other, each by its name. -/
def performAll (o : Object) (history : List (String × Access)) : Object :=
  history.foldl (fun o access => (access.2.perform access.1 o).2) o

/-- What no access of a history names is as it was before the history. -/
theorem changedOnly_performAll (h : o.cls.Labelled) (history : List (String × Access)) :
    o.ChangedOnly (fun e => ∃ access ∈ history, e.isNamed access.1 = true)
      (o.performAll history) := by
  induction history generalizing o with
  | nil => exact .refl ..
  | cons access history ih =>
    have hstep := changedOnly_perform h access.2 access.1
    refine (hstep.trans (ih (hstep.cls ▸ h))).mono fun e _ htouched => ?_
    rcases htouched with hname | ⟨later, hlater, hname⟩
    · exact ⟨access, List.mem_cons_self .., hname⟩
    · exact ⟨later, List.mem_cons_of_mem _ hlater, hname⟩

/-- What accesses by name do to an object. -/
structure Accessible (o : Object) : Prop where
  /-- Whatever fails, for whatever name, leaves the whole object as it was. -/
  failed : ∀ name (a : Access) e x, a.perform name o = (.error e, x) → x = o
  refused : ∀ d ∈ o.cls.attributes, ∀ name, d.isNamed name = true → ∀ a e,
    d.refusal? a = some e → a.perform name o = (.error e, o)
  /-- What is not refused is made. The attribute shows what it was changed to, and nothing else is
  changed. -/
  taken : ∀ d ∈ o.cls.attributes, ∀ name, d.isNamed name = true → ∀ a, d.refusal? a = none →
    ∃ x, a.perform name o = (.ok (), x) ∧ a.result name o = .ok x ∧ o.ChangedOnly (· = d) x ∧
      ∃ f ∈ o.fields, f.about = d ∧ ∃ t, a.slot d f.slot = .ok t ∧
        x.get name = .ok t.read ∧ x.links name = .ok t.links
  /-- Set to what it is reported to be, an attribute without references is as before. -/
  again : ∀ d ∈ o.cls.attributes, ∀ name, d.isNamed name = true → d.kind.isReference = false →
    ∀ v, o.get name = .ok (some v) →
      ∃ text, v = .text text ∧ (Access.set text).perform name o = (.ok (), o)
  /-- No history of accesses changes the identity, nor an attribute that it does not name. -/
  history : ∀ history : List (String × Access),
    o.ChangedOnly (fun e => ∃ access ∈ history, e.isNamed access.1 = true) (o.performAll history)

theorem accessible (h : o.cls.Labelled) : o.Accessible where
  failed := by
    intro name a e x hfail
    rw [Access.perform_eq] at hfail
    cases hresult : a.result name o with
    | ok y =>
      rw [hresult] at hfail
      exact nomatch hfail
    | error e' =>
      rw [hresult] at hfail
      exact (congrArg Prod.snd hfail).symm
  refused := by
    intro d hd name hname a e hrefusal
    obtain ⟨f, hf, rfl⟩ := exists_field_of_mem hd
    rcases Access.slot_cases (a := a) f.sort_slot with ⟨e', he', hslot⟩ | ⟨hnone, -⟩
    · obtain rfl : e' = e := Option.some.inj (he'.symm.trans hrefusal)
      rw [Access.perform_eq, Access.result_of_field? (field?_of_mem h hf hname), hslot]
      rfl
    · rw [hnone] at hrefusal
      exact nomatch hrefusal
  taken := by
    intro d hd name hname a hrefusal
    obtain ⟨f, hf, rfl⟩ := exists_field_of_mem hd
    rcases Access.slot_cases (a := a) f.sort_slot with ⟨e, he, -⟩ | ⟨-, t, hslot, hsort⟩
    · rw [he] at hrefusal
      exact nomatch hrefusal
    · have hresult : a.result name o = .ok (o.replace name t) := by
        rw [Access.result_of_field? (field?_of_mem h hf hname), hslot]
        rfl
      have hfound : (o.replace name t).field? name = some (f.withSlot t) :=
        Field.find?_replace (field?_of_mem h hf hname)
      refine ⟨_, by rw [Access.perform_eq, hresult]; rfl, hresult, ?_, f, hf, rfl, t, hslot, ?_, ?_⟩
      · -- The names tell the attributes apart.
        exact (changedOnly_replace h name t).mono fun e he hname' =>
          List.inj_on_of_nodup_map h he hd (Descriptor.label_eq_of_isNamed hname' hname)
      · rw [get_of_field? hfound, Field.slot_withSlot hsort]
      · rw [links_of_field? hfound, Field.slot_withSlot hsort]
  again := by
    intro d hd name hname hkind v hread
    obtain ⟨f, hf, rfl⟩ := exists_field_of_mem hd
    have hfound := field?_of_mem h hf hname
    rw [get_of_field? hfound, Except.ok.injEq] at hread
    obtain ⟨text, rfl, hwrite⟩ := Slot.write?_read (by rw [f.sort_slot]; exact hkind) hread
    have hslot : (Access.set text).slot f.about f.slot = .ok f.slot :=
      Descriptor.write_eq_ok.mpr hwrite
    have hsame : o.replace name f.slot = o := ext_fields rfl rfl rfl rfl (Field.replace_self hfound)
    refine ⟨text, rfl, ?_⟩
    rw [Access.perform_eq, Access.result_of_field? (field?_of_mem h hf hname), hslot, Except.map,
      hsame]
    rfl
  history := changedOnly_performAll h

end Object

end CimStore

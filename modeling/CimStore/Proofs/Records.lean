import CimStore.Proofs.Wiring

/-!
# Records that are accessed by name

A record of a wired class is shown by an object (`Wiring.Shows`), and an access of the record is the
access of the object. So the laws of objects are laws of the records:

* `Wiring.exists_shows`, `Wiring.Shows.ext`: every record is shown, and by no other record's object;
* `Wiring.Shows.perform`: an access has the same outcome for both, and what it leaves is shown;
* `RecordClass.accessible_of_standard`: an access of a record of a standard class changes the field
  of its attribute and nothing else, or fails and changes nothing.
-/

namespace CimStore

/-! ## The object of a record -/

/-- Slots of the right sorts are those of fields. -/
theorem Field.exists_fields {ds : List Descriptor} {ss : List Slot}
    (h : ss.map Slot.sort = ds.map Descriptor.sort) :
    ∃ fs : List Field, fs.map Field.about = ds ∧ fs.map Field.slot = ss := by
  induction ds generalizing ss with
  | nil => exact ⟨[], rfl, (List.map_eq_nil_iff.mp h).symm⟩
  | cons d ds ih =>
    obtain ⟨s, ss, rfl, hs, hrest⟩ := List.map_eq_cons_iff.mp h
    obtain ⟨fs, rfl, rfl⟩ := ih hrest
    exact ⟨⟨d, s, hs⟩ :: fs, rfl, rfl⟩

section Lookup

variable {σ : Type} {as : List (Attribute σ)} {fs : List Field}

/-- A name is looked up in a table and in fields at the same place, or in neither. -/
theorem find?_cases (h : fs.map Field.about = as.map Attribute.about) (name : String) :
    (as.find? (·.about.isNamed name) = none ∧ fs.find? (·.about.isNamed name) = none) ∨
    ∃ i a f, as[i]? = some a ∧ fs[i]? = some f ∧ f.about = a.about ∧
      as.find? (·.about.isNamed name) = some a ∧ fs.find? (·.about.isNamed name) = some f ∧
      ∀ s, s.sort = f.about.sort →
        (Field.replace name s fs).map Field.slot = (fs.map Field.slot).set i s := by
  induction as generalizing fs with
  | nil =>
    obtain rfl := List.map_eq_nil_iff.mp h
    exact .inl ⟨rfl, rfl⟩
  | cons a as ih =>
    obtain ⟨f, fs, rfl, hf, hrest⟩ := List.map_eq_cons_iff.mp h
    by_cases hname : a.about.isNamed name
    · have hname' : f.about.isNamed name = true := hf ▸ hname
      refine .inr ⟨0, a, f, rfl, rfl, hf, List.find?_cons_of_pos hname,
        List.find?_cons_of_pos hname', fun s hs => ?_⟩
      rw [Field.replace, if_pos hname', List.map_cons, Field.slot_withSlot hs]
      rfl
    · have hname' : ¬f.about.isNamed name = true := hf ▸ hname
      have hskip : (a :: as).find? (·.about.isNamed name) = as.find? (·.about.isNamed name) :=
        List.find?_cons_of_neg hname
      have hskip' : (f :: fs).find? (·.about.isNamed name) = fs.find? (·.about.isNamed name) :=
        List.find?_cons_of_neg hname'
      rw [hskip, hskip']
      rcases ih hrest with hnone | ⟨i, b, g, hb, hg, habout, hfa, hff, hreplace⟩
      · exact .inl hnone
      · refine .inr ⟨i + 1, b, g, hb, hg, habout, hfa, hff, fun s hs => ?_⟩
        rw [Field.replace, if_neg hname', List.map_cons, hreplace s hs]
        rfl

end Lookup

namespace RecordClass

theorem attributes_cls (c : RecordClass) :
    c.cls.attributes = c.table.attributes.map Attribute.about :=
  List.map_flatten.symm

namespace Wiring

variable {c : RecordClass} (w : c.Wiring)

/-- The slots of a record. -/
def slots (r : c.Record) : List Slot := (w.naming r).slots ++ w.own r

variable {w}

theorem wired {i : Nat} {a : Attribute c.Record} (h : c.table.attributes[i]? = some a) :
    a.Wired c.base.get w.slots i := by
  have hwired := w.wires.wired h
  rwa [Nat.zero_add] at hwired

/-- The record is shown by the object: class, identity and slots are the same. -/
structure Shows (w : c.Wiring) (r : c.Record) (o : Object) : Prop where
  cls : o.cls = c.cls
  base : c.base.get r = ⟨o.id, o.rdfid, o.model⟩
  slots : w.slots r = o.fields.map Field.slot

/-- An object shows one record only. -/
theorem Shows.ext {r r' : c.Record} {o : Object} (h : w.Shows r o) (h' : w.Shows r' o) :
    r = r' := by
  obtain ⟨hnaming, hown⟩ := IdentifiedObject.slots_append_inj.mp (h.slots.trans h'.slots.symm)
  exact w.ext r r' (h.base.trans h'.base.symm) hnaming hown

/-- Every record is shown. -/
theorem exists_shows (w : c.Wiring) (r : c.Record) : ∃ o, w.Shows r o := by
  have hsorts : (w.slots r).map Slot.sort = c.cls.attributes.map Descriptor.sort := by
    refine List.ext_getElem? fun i => ?_
    rw [attributes_cls, List.map_map, List.getElem?_map, List.getElem?_map]
    cases ha : c.table.attributes[i]? with
    | none =>
      have hlength : (w.slots r).length = _ := w.length_slots r
      rw [List.getElem?_eq_none_iff] at ha
      rw [List.getElem?_eq_none (hlength ▸ ha)]
      rfl
    | some a =>
      obtain ⟨s, hs, hsort, -⟩ := (wired (w := w) ha).read r
      rw [hs]
      exact congrArg some hsort
  obtain ⟨fs, habout, hslots⟩ := Field.exists_fields hsorts
  let base := c.base.get r
  exact ⟨⟨c.cls, base.id, base.rdfid, base.model, fs, habout⟩, rfl, rfl, hslots.symm⟩

variable {r : c.Record} {o : Object}

/-- A name is looked up in the table of a record and in its object at the same place. -/
theorem Shows.lookup_cases (h : w.Shows r o) (name : String) :
    (c.table.find? name = none ∧ o.field? name = none) ∨
    ∃ i a f, c.table.find? name = some a ∧ o.field? name = some f ∧ f.about = a.about ∧
      a.Wired c.base.get w.slots i ∧ (w.slots r)[i]? = some f.slot ∧
      ∀ s, s.sort = f.about.sort → (o.replace name s).fields.map Field.slot =
        (w.slots r).set i s := by
  have hfields : o.fields.map Field.about = c.table.attributes.map Attribute.about := by
    rw [o.fields_about, h.cls, attributes_cls]
  rcases find?_cases hfields name with hnone | ⟨i, a, f, ha, hf, habout, hfa, hff, hreplace⟩
  · exact .inl hnone
  · refine .inr ⟨i, a, f, hfa, hff, habout, wired ha, ?_, fun s hs => ?_⟩
    · rw [h.slots, List.getElem?_map, hf]
      rfl
    · rw [h.slots]
      exact hreplace s hs

theorem Shows.className (h : w.Shows r o) : c.table.className = o.cimType := by
  rw [Object.cimType, h.cls, w.className]
  rfl

/-- **A record is read as its object is.** -/
theorem Shows.read (h : w.Shows r o) (name : String) :
    c.getAttribute name r = o.get name ∧ c.linkedObjects name r = o.links name := by
  dsimp only [getAttribute, linkedObjects, AttributeTable.get, Object.get, Object.links,
    Object.field]
  rcases h.lookup_cases name with ⟨hnone, hnone'⟩ | ⟨i, a, f, ha, hf, -, hwired, hslot, -⟩
  · rw [hnone, hnone', h.className]
    exact ⟨rfl, rfl⟩
  · obtain ⟨s, hs, -, hread, hlinks⟩ := hwired.read r
    obtain rfl : s = f.slot := Option.some.inj (hs.symm.trans hslot)
    rw [ha, hf]
    exact ⟨congrArg Except.ok hread, congrArg Except.ok hlinks⟩

/-- **An access of a record is that of its object.** -/
theorem Shows.perform (h : w.Shows r o) (access : Access) (name : String) :
    (c.perform access name r).1 = (access.perform name o).1 ∧
      w.Shows (c.perform access name r).2 (access.perform name o).2 := by
  rw [perform_eq, Access.perform, Object.within]
  rcases h.lookup_cases name with ⟨hnone, hnone'⟩ | ⟨i, a, f, ha, hf, habout, hwired, hslot, hset⟩
  · rw [hnone, hnone', h.className]
    exact ⟨rfl, h⟩
  · obtain ⟨hresult, hslots, hbase⟩ := hwired.perform access r f.slot hslot
    simp only [ha, hf, Access.program_eq, habout]
    refine ⟨hresult, h.cls, hbase.trans h.base, ?_⟩
    rw [hslots, hset]
    rcases Access.slot_cases (a := access) f.sort_slot with ⟨e, -, he⟩ | ⟨-, t, ht, hsort⟩
    · rw [← habout, he]
      exact f.sort_slot
    · rw [← habout, ht]
      exact hsort

end Wiring

/-! ## Laws of records -/

/-- The record is as before, save for the attributes that were touched. -/
structure ChangedOnly (c : RecordClass) (r : c.Record) (touched : Descriptor → Prop)
    (r' : c.Record) : Prop where
  base : c.base.get r' = c.base.get r
  /-- The others have their values and their links, under all their names. -/
  others : ∀ a ∈ c.table.attributes, ¬touched a.about → ∀ name, a.about.isNamed name = true →
    c.getAttribute name r' = c.getAttribute name r ∧
      c.linkedObjects name r' = c.linkedObjects name r

/-- The accesses of a history, one after the other, each by its name. -/
def performAll (c : RecordClass) (r : c.Record) (history : List (String × Access)) : c.Record :=
  history.foldl (fun r access => (c.perform access.2 access.1 r).2) r

/-- What accesses by name do to a record. -/
structure Accessible (c : RecordClass) (r : c.Record) : Prop where
  /-- Whatever fails, for whatever name, leaves the whole record as it was. -/
  failed : ∀ name (access : Access) e r', c.perform access name r = (.error e, r') → r' = r
  refused : ∀ a ∈ c.table.attributes, ∀ name, a.about.isNamed name = true → ∀ access e,
    a.about.refusal? access = some e → c.perform access name r = (.error e, r)
  /-- What is not refused is made: the attribute held one slot and holds the one that the access
  gives, and nothing else is changed. -/
  taken : ∀ a ∈ c.table.attributes, ∀ name, a.about.isNamed name = true → ∀ access,
    a.about.refusal? access = none → ∃ r', c.perform access name r = (.ok (), r') ∧
      c.ChangedOnly r (· = a.about) r' ∧ ∃ s t, s.sort = a.about.sort ∧
        access.slot a.about s = .ok t ∧
        c.getAttribute name r = .ok s.read ∧ c.linkedObjects name r = .ok s.links ∧
        c.getAttribute name r' = .ok t.read ∧ c.linkedObjects name r' = .ok t.links
  /-- Set to what it is reported to be, an attribute without references leaves the whole record as
  it was. -/
  again : ∀ a ∈ c.table.attributes, ∀ name, a.about.isNamed name = true →
    a.about.kind.isReference = false → ∀ v, c.getAttribute name r = .ok (some v) →
      ∃ text, v = .text text ∧ c.perform (.set text) name r = (.ok (), r)
  /-- No history of accesses changes the identity, nor an attribute that it does not name. -/
  history : ∀ history : List (String × Access),
    c.ChangedOnly r (fun d => ∃ access ∈ history, d.isNamed access.1 = true)
      (c.performAll r history)

namespace Wiring

variable {c : RecordClass} {w : c.Wiring} {r r' : c.Record} {o o' : Object}

theorem Shows.changedOnly (h : w.Shows r o) (h' : w.Shows r' o') {touched : Descriptor → Prop}
    (ho : o.ChangedOnly touched o') : c.ChangedOnly r touched r' where
  base := by rw [h.base, h'.base, ho.id, ho.rdfid, ho.model]
  others a ha hnot name hname := by
    have hmem : a.about ∈ o.cls.attributes := by
      rw [h.cls, attributes_cls]
      exact List.mem_map_of_mem ha
    obtain ⟨hget, hlinks⟩ := ho.others a.about hmem hnot name hname
    rw [(h.read name).1, (h'.read name).1, (h.read name).2, (h'.read name).2]
    exact ⟨hget, hlinks⟩

/-- What an access of the object leaves is what the access of the record leaves. -/
theorem Shows.perform_eq (h : w.Shows r o) {access : Access} {name : String}
    {result : Except Error Unit} (ho : access.perform name o = (result, o'))
    (h' : w.Shows r' o') : c.perform access name r = (result, r') := by
  obtain ⟨hresult, hshows⟩ := h.perform access name
  rw [ho] at hresult hshows
  exact Prod.ext hresult (hshows.ext h')

theorem Shows.performAll (h : w.Shows r o) (history : List (String × Access)) :
    w.Shows (c.performAll r history) (o.performAll history) := by
  induction history generalizing r o with
  | nil => exact h
  | cons access history ih => exact ih (h.perform access.2 access.1).2

/-- **The laws of objects are laws of the records that they show.** -/
theorem accessible (w : c.Wiring) (hlabels : c.cls.Labelled) (r : c.Record) : c.Accessible r := by
  obtain ⟨o, ho⟩ := w.exists_shows r
  have hlabels : o.cls.Labelled := ho.cls ▸ hlabels
  have hlaws := Object.accessible hlabels
  have hmem : ∀ a ∈ c.table.attributes, a.about ∈ o.cls.attributes := fun a ha => by
    rw [ho.cls, attributes_cls]
    exact List.mem_map_of_mem ha
  refine ⟨fun name access e r' hfail => ?_, fun a ha name hname access e hrefusal => ?_,
    fun a ha name hname access hrefusal => ?_, fun a ha name hname hkind v hread => ?_,
    fun history => ho.changedOnly (ho.performAll history) (hlaws.history history)⟩
  · obtain ⟨hresult, hshows⟩ := ho.perform access name
    rw [hfail] at hresult hshows
    have hsame : (access.perform name o).2 = o :=
      hlaws.failed name access e _ (Prod.ext hresult.symm rfl)
    rw [hsame] at hshows
    exact hshows.ext ho
  · exact ho.perform_eq (hlaws.refused _ (hmem a ha) name hname access e hrefusal) ho
  · obtain ⟨o', hperform, -, honly, f, hf, habout, t, ht, hget, hlinks⟩ :=
      hlaws.taken _ (hmem a ha) name hname access hrefusal
    obtain ⟨hresult, hshows⟩ := ho.perform access name
    rw [hperform] at hresult hshows
    have hfound := Object.field?_of_mem hlabels hf (habout ▸ hname)
    refine ⟨_, Prod.ext hresult rfl, ho.changedOnly hshows honly, f.slot, t,
      habout ▸ f.sort_slot, ht, ?_, ?_, (hshows.read name).1.trans hget,
      (hshows.read name).2.trans hlinks⟩
    · rw [(ho.read name).1, Object.get_of_field? hfound]
    · rw [(ho.read name).2, Object.links_of_field? hfound]
  · rw [(ho.read name).1] at hread
    obtain ⟨text, rfl, hperform⟩ := hlaws.again _ (hmem a ha) name hname hkind v hread
    exact ⟨text, rfl, ho.perform_eq hperform ho⟩

end Wiring

/-- **Attributes are accessed one at a time.** An access of a record of a standard class, in any
state, changes the attribute of the name and nothing else, or fails and changes nothing; and what an
attribute is reported to be can be set again without any change. -/
theorem accessible_of_standard {c : RecordClass} (h : c ∈ standard) (r : c.Record) :
    c.Accessible r := by
  obtain ⟨w⟩ := nonempty_wiring_of_standard h
  exact w.accessible (CimClass.standard_labelled _ (List.mem_map_of_mem h)) r

/-- A terminal refuses a number that is not whole and stays as it is. It is linked to a busbar
section, which does not show in its phases. -/
theorem accessible_terminal : terminal ∈ standard ∧
    terminal.perform (.set "1.5") "sequenceNumber" (terminal.withRdfid "_t1") =
      (.error (.malformedValue "ACDCTerminal.sequenceNumber" "1.5"), terminal.withRdfid "_t1") ∧
    ∃ r : Terminal, terminal.perform (.link ⟨0, "_b1", "BusbarSection"⟩) "ConductingEquipment"
      (terminal.withRdfid "_t1") = (.ok (), r) ∧ r.base.rdfid = "_t1" ∧
      terminal.getAttribute "phases" r = .ok none := by
  have hstandard : terminal ∈ standard := by simp [standard]
  obtain ⟨-, hrefused, htaken, -, -⟩ := accessible_of_standard hstandard (terminal.withRdfid "_t1")
  have hattribute : ∀ d ∈ terminal.cls.attributes,
      ∃ a ∈ terminal.table.attributes, a.about = d := by
    rw [attributes_cls]
    exact fun d hd => List.mem_map.mp hd
  refine ⟨hstandard, ?_, ?_⟩
  · obtain ⟨a, ha, habout⟩ := hattribute
      ⟨"ACDCTerminal.sequenceNumber", .integer, [], true, cimNamespace⟩ (by decide +kernel)
    exact hrefused a ha _ (habout ▸ by decide +kernel) _ _ (habout ▸ by decide +kernel)
  · obtain ⟨a, ha, habout⟩ := hattribute ⟨"Terminal.ConductingEquipment", .reference,
      ["ACLineSegment", "BusbarSection"], true, cimNamespace⟩ (by decide +kernel)
    obtain ⟨b, hb, hphases⟩ := hattribute
      ⟨"Terminal.phases", .phaseCode, [], true, cimNamespace⟩ (by decide +kernel)
    obtain ⟨r, hr, honly, -⟩ := htaken a ha "ConductingEquipment" (habout ▸ by decide +kernel)
      (.link ⟨0, "_b1", "BusbarSection"⟩) (habout ▸ by decide +kernel)
    refine ⟨r, hr, congrArg ObjectBase.rdfid honly.base, ?_⟩
    rw [(honly.others b hb (by rw [hphases, habout]; decide) "phases"
      (hphases ▸ by decide +kernel)).1]
    rfl

end RecordClass

end CimStore

import CimStore.Payload.Objects
import CimStore.Proofs.Rows
import CimStore.Proofs.TextParts

/-!
# Attributes by name

An attribute goes by its label and by its full name. In a class whose labels are distinct
(`CimClass.Labelled`) a name belongs to one attribute at most, so what is done by name is done to
that attribute alone:

* `Descriptor.label_eq_of_isNamed`: attributes that share a name share their label;
* `Object.field_of_mem`: every field is found by each of its names;
* `Object.replace_fields`: a field replaced by name is that one, and no other changes;
* `Object.exists_field_of_change`: setting or linking by name changes one field at most;
* `Object.setValue_eq`: a value is set by writing its texts into the slot of the field;
* `Object.get_congr`, `Entry.ofObject_congr`: what is read by name, and what is written, depends on
  the class and the texts only.
-/

namespace CimStore

/-- What every step keeps is kept by a run that does not fail. -/
theorem foldlM_keeps {α β : Type} {P : β → Prop} {f : β → α → Except Error β}
    (hf : ∀ b a c, f b a = .ok c → P b → P c) {as : List α} {b c : β}
    (h : as.foldlM f b = .ok c) (hb : P b) : P c := by
  induction as generalizing b with
  | nil => exact Except.ok.inj h ▸ hb
  | cons a as ih =>
    rw [List.foldlM_cons] at h
    cases ha : f b a with
    | error e =>
      rw [ha] at h
      exact nomatch h
    | ok b' =>
      rw [ha] at h
      exact ih h (hf b a b' ha hb)

/-! ## Names -/

namespace Descriptor

variable {d e : Descriptor} {name : String}

/-- A name without a point is its own label. -/
theorem label_eq_fullName (h : '.' ∉ d.fullName.toList) : d.label = d.fullName := by
  simp [label, Text.afterLast?_eq_none_iff.mpr h]

theorem point_not_mem_label (d : Descriptor) : '.' ∉ d.label.toList := by
  unfold label
  cases h : Text.afterLast? '.' d.fullName.toList with
  | none => simpa using Text.afterLast?_eq_none_iff.mp h
  | some rest => simpa using Text.not_mem_of_afterLast?_eq_some h

@[simp]
theorem isNamed_label (d : Descriptor) : d.isNamed d.label = true := by
  simp [isNamed]

/-- **Attributes that share a name share their label.** -/
theorem label_eq_of_isNamed (hd : d.isNamed name = true) (he : e.isNamed name = true) :
    d.label = e.label := by
  -- A full name that is the label of another attribute has no point, so it is a label as well.
  have hmixed : ∀ a b : Descriptor, a.label = name → b.fullName = name → a.label = b.label := by
    intro a b ha hb
    have hpoint : '.' ∉ b.fullName.toList := hb ▸ ha ▸ a.point_not_mem_label
    rw [label_eq_fullName hpoint, ha, hb]
  simp only [isNamed, Bool.or_eq_true, decide_eq_true_eq] at hd he
  rcases hd with hd | hd <;> rcases he with he | he
  · rw [hd, he]
  · exact hmixed d e hd he
  · exact (hmixed e d he hd).symm
  · simp [label, hd, he]

variable {slot s : Slot} {text : String} {l : Link}

theorem write_eq_ok : d.write text slot = .ok s ↔ slot.write? text = some s := by
  unfold write
  cases slot.write? text <;> simp

theorem link_eq_ok : d.link l slot = .ok s ↔ d.admits l.cimType = true ∧ slot.link? l = some s := by
  unfold link
  by_cases hadmits : d.admits l.cimType
  · cases slot.link? l <;> simp [hadmits]
  · simp [hadmits]

end Descriptor

/-! ## Classes with distinct labels -/

/-- No two attributes of the class have one label. -/
def CimClass.Labelled (c : CimClass) : Prop := c.labels.Nodup

instance (c : CimClass) : Decidable c.Labelled := inferInstanceAs (Decidable c.labels.Nodup)

/-- The labels of every known class are distinct. -/
def Catalog.Labelled (k : Catalog) : Prop := ∀ e ∈ k.entries, e.2.Labelled

theorem CimClass.standard_labelled : ∀ c ∈ CimClass.standard, c.Labelled := by
  decide +kernel

theorem Catalog.labelled_ofClasses {cs : List CimClass} (h : ∀ c ∈ cs, c.Labelled) :
    (Catalog.ofClasses cs).Labelled := by
  suffices ∀ k : Catalog, k.Labelled → (cs.foldl register k).Labelled from
    this .empty fun e he => absurd he List.not_mem_nil
  induction cs with
  | nil => exact fun k hk => hk
  | cons c cs ih =>
    intro k hk
    refine ih (fun a ha => h a (List.mem_cons_of_mem _ ha)) _ fun e he => ?_
    have hget := SortedMap.get?_eq_some_iff.mpr he
    rw [register, SortedMap.get?_insert] at hget
    split at hget
    · exact Option.some.inj hget ▸ h c (List.mem_cons_self ..)
    · exact hk e (SortedMap.get?_eq_some_iff.mp hget)

theorem Catalog.standard_labelled : Catalog.standard.Labelled :=
  labelled_ofClasses CimClass.standard_labelled

theorem Catalog.Labelled.of_get? {k : Catalog} (hk : k.Labelled) {name : String} {c : CimClass}
    (h : k.get? name = some c) : c.Labelled :=
  hk _ (SortedMap.get?_eq_some_iff.mp h)

/-! ## Fields by name -/

namespace Field

variable {fs : List Field} {f : Field} {name : String} {slot : Slot}

theorem withSlot_self (f : Field) : f.withSlot f.slot = f := by
  rw [withSlot, dif_pos f.sort_slot]

theorem withSlot_withSlot {s : Slot} (hslot : slot.sort = f.about.sort) :
    (f.withSlot s).withSlot slot = f.withSlot slot := by
  unfold withSlot
  by_cases hs : s.sort = f.about.sort <;> simp [hs, hslot]

theorem replace_self (h : fs.find? (·.about.isNamed name) = some f) :
    replace name f.slot fs = fs := by
  induction fs with
  | nil => rfl
  | cons g fs ih =>
    rw [replace]
    by_cases hg : g.about.isNamed name
    · obtain rfl : g = f := by simpa [hg] using h
      rw [if_pos hg, withSlot_self]
    · rw [if_neg hg, ih (by simpa [hg] using h)]

theorem replace_replace {s : Slot} (h : fs.find? (·.about.isNamed name) = some f)
    (hslot : slot.sort = f.about.sort) :
    replace name slot (replace name s fs) = replace name slot fs := by
  induction fs with
  | nil => rfl
  | cons g fs ih =>
    by_cases hg : g.about.isNamed name
    · obtain rfl : g = f := by simpa [hg] using h
      simp [replace, hg, withSlot_withSlot hslot]
    · simp [replace, hg, ih (by simpa [hg] using h)]

theorem find?_replace (h : fs.find? (·.about.isNamed name) = some f) :
    (replace name slot fs).find? (·.about.isNamed name) = some (f.withSlot slot) := by
  induction fs with
  | nil => exact nomatch h
  | cons g fs ih =>
    by_cases hg : g.about.isNamed name
    · obtain rfl : g = f := by simpa [hg] using h
      simp [replace, hg]
    · simp [replace, hg, ih (by simpa [hg] using h)]

/-- A field is one of those before, or the first of the name with the new slot. -/
theorem mem_replace {g : Field} (h : g ∈ replace name slot fs) : g ∈ fs ∨
    ∃ f, fs.find? (·.about.isNamed name) = some f ∧ g = f.withSlot slot := by
  induction fs with
  | nil => exact nomatch h
  | cons a fs ih =>
    rw [replace] at h
    by_cases ha : a.about.isNamed name
    · rw [if_pos ha, List.mem_cons] at h
      rcases h with rfl | h
      · exact .inr ⟨a, by simp [ha], rfl⟩
      · exact .inl (List.mem_cons_of_mem _ h)
    · rw [if_neg ha, List.mem_cons] at h
      rcases h with rfl | h
      · exact .inl (List.mem_cons_self ..)
      · refine (ih h).imp (List.mem_cons_of_mem _) ?_
        rintro ⟨f, hf, rfl⟩
        exact ⟨f, by simpa [ha] using hf, rfl⟩

/-- A field of a new slot takes the place of the first field of the name. -/
theorem replace_append {pre post : List Field}
    (hpre : ∀ g ∈ pre, ¬g.about.isNamed name = true) (hf : f.about.isNamed name = true) :
    replace name slot (pre ++ f :: post) = pre ++ f.withSlot slot :: post := by
  induction pre with
  | nil => simp [replace, hf]
  | cons g pre ih =>
    have hg := hpre g (List.mem_cons_self ..)
    simp [replace, hg, ih fun a ha => hpre a (List.mem_cons_of_mem _ ha)]

/-- A field is found by each of its names. -/
theorem find?_of_mem (h : (fs.map fun f => f.about.label).Nodup) (hf : f ∈ fs)
    (hname : f.about.isNamed name = true) : fs.find? (·.about.isNamed name) = some f := by
  cases hfind : fs.find? (·.about.isNamed name) with
  | none => exact absurd hname (List.find?_eq_none.mp hfind f hf)
  | some g =>
    have hg : g ∈ fs := List.mem_of_find?_eq_some hfind
    have hnamed : g.about.isNamed name = true := by simpa using List.find?_some hfind
    rw [List.inj_on_of_nodup_map h hg hf (Descriptor.label_eq_of_isNamed hnamed hname)]

/-- Only the field of the name is replaced. -/
theorem replace_eq_map (h : (fs.map fun f => f.about.label).Nodup) :
    replace name slot fs =
      fs.map fun f => if f.about.isNamed name then f.withSlot slot else f := by
  induction fs with
  | nil => rfl
  | cons g fs ih =>
    obtain ⟨hnot, hnodup⟩ := List.nodup_cons.mp h
    rw [replace, List.map_cons, ← ih hnodup]
    by_cases hg : g.about.isNamed name
    · rw [if_pos hg, if_pos hg, ih hnodup, List.map_congr_left, List.map_id']
      intro f hf
      rw [if_neg]
      intro hname
      apply hnot
      show g.about.label ∈ _
      rw [← Descriptor.label_eq_of_isNamed hname hg]
      exact List.mem_map_of_mem (f := fun f : Field => f.about.label) hf
    · rw [if_neg hg, if_neg hg]

end Field

namespace Object

variable {o x : Object} {f : Field} {name : String} {slot : Slot}

theorem labels_fields (o : Object) : (o.fields.map fun f => f.about.label) = o.cls.labels := by
  rw [CimClass.labels, ← o.fields_about, List.map_map]
  rfl

theorem nodup_labels (h : o.cls.Labelled) : (o.fields.map fun f => f.about.label).Nodup := by
  rw [labels_fields]
  exact h

theorem field_eq_ok_iff : o.field name = .ok f ↔ o.field? name = some f := by
  unfold field
  cases o.field? name <;> simp

/-- **Every field is found by each of its names.** -/
theorem field_of_mem (h : o.cls.Labelled) (hf : f ∈ o.fields)
    (hname : f.about.isNamed name = true) : o.field name = .ok f :=
  field_eq_ok_iff.mpr (Field.find?_of_mem (nodup_labels h) hf hname)

theorem field?_of_mem (h : o.cls.Labelled) (hf : f ∈ o.fields)
    (hname : f.about.isNamed name = true) : o.field? name = some f :=
  field_eq_ok_iff.mp (field_of_mem h hf hname)

/-- **Only the field of the name is replaced.** -/
theorem replace_fields (h : o.cls.Labelled) (name : String) (slot : Slot) :
    (o.replace name slot).fields =
      o.fields.map fun f => if f.about.isNamed name then f.withSlot slot else f :=
  Field.replace_eq_map (nodup_labels h)

/-- **A change of the attribute of a name changes one field at most**, if it does not fail. -/
theorem exists_field_of_change (change : Field → Except Error Slot)
    (hsort : ∀ f s, change f = .ok s → s.sort = f.slot.sort)
    (h : (do let f ← o.field name; return o.replace name (← change f)) = .ok x) :
    x.cls = o.cls ∧ x.id = o.id ∧ x.rdfid = o.rdfid ∧ ∀ g ∈ x.fields, g ∈ o.fields ∨
      ∃ f ∈ o.fields, g.about = f.about ∧ change f = .ok g.slot := by
  cases hfield : o.field name with
  | error e =>
    rw [hfield] at h
    exact nomatch h
  | ok f =>
    rw [hfield] at h
    cases hchange : change f with
    | error e => simp [hchange, bind, Except.bind] at h
    | ok s =>
      obtain rfl : o.replace name s = x := by
        simpa [hchange, bind, Except.bind, pure, Except.pure] using h
      refine ⟨rfl, rfl, rfl, fun g hg => (Field.mem_replace hg).imp_right ?_⟩
      rintro ⟨a, ha, rfl⟩
      obtain rfl : a = f := Option.some.inj (ha.symm.trans (field_eq_ok_iff.mp hfield))
      refine ⟨a, List.mem_of_find?_eq_some ha, Field.about_withSlot .., ?_⟩
      rw [Field.slot_withSlot ((hsort a s hchange).trans a.sort_slot)]
      exact hchange

/-- Objects with the same fields under the same identity are equal. -/
theorem ext_fields (hcls : x.cls = o.cls) (hid : x.id = o.id) (hrdfid : x.rdfid = o.rdfid)
    (hmodel : x.model = o.model) (hfields : x.fields = o.fields) : x = o := by
  cases x
  cases o
  simp_all

/-! ## Setting values -/

theorem sort_of_foldlM_write {d : Descriptor} {ts : List String} {s t : Slot}
    (h : ts.foldlM (fun slot text => d.write text slot) s = .ok t) : t.sort = s.sort :=
  foldlM_keeps (P := fun slot => slot.sort = s.sort)
    (fun _ _ _ hw hs => (Descriptor.sort_of_write hw).trans hs) h rfl

/-- Texts that are set one after the other are written into the slot one after the other. -/
theorem setAll_eq {ts : List String} (hf : o.field? name = some f)
    (h : ts.foldlM (fun slot text => f.about.write text slot) f.slot = .ok slot) :
    o.setAll name ts = .ok (o.replace name slot) := by
  induction ts generalizing o f with
  | nil =>
    obtain rfl : f.slot = slot := Except.ok.inj h
    have hsame : o.replace name f.slot = o :=
      ext_fields rfl rfl rfl rfl (Field.replace_self hf)
    rw [hsame]
    rfl
  | cons text ts ih =>
    have hsort := (sort_of_foldlM_write h).trans f.sort_slot
    rw [List.foldlM_cons] at h
    cases hw : f.about.write text f.slot with
    | error e =>
      rw [hw] at h
      exact nomatch h
    | ok s =>
      rw [hw] at h
      have hs : s.sort = f.about.sort := (Descriptor.sort_of_write hw).trans f.sort_slot
      have hset : o.set name text = .ok (o.replace name s) := by
        simp [set, field_eq_ok_iff.mpr hf, hw, bind, Except.bind, pure, Except.pure]
      have hfound : (o.replace name s).field? name = some (f.withSlot s) :=
        Field.find?_replace hf
      have hrest := ih hfound (by
        rw [Field.about_withSlot, Field.slot_withSlot hs]
        exact h)
      show (o.set name text >>= fun o => o.setAll name ts) = _
      have hsame : (o.replace name s).replace name slot = o.replace name slot :=
        ext_fields rfl rfl rfl rfl (Field.replace_replace hf hsort)
      rw [hset, ← hsame]
      exact hrest

end Object

/-- The texts that are set, one after the other, to set a value. -/
def Value.inputs : Value → List String
  | text t => [t]
  | texts ts => ts

namespace Object

variable {o x : Object} {f : Field} {name : String} {slot : Slot}

/-- **A value is set by writing its texts into the slot.** Only a reference set takes several. -/
theorem setValue_eq {v : Value} (hf : o.field? name = some f)
    (hshape : ∀ ts, v = .texts ts → f.about.kind = .referenceSet)
    (h : v.inputs.foldlM (fun slot text => f.about.write text slot) f.slot = .ok slot) :
    o.setValue name v = .ok (o.replace name slot) := by
  have hall := setAll_eq hf h
  cases v with
  | text t =>
    rw [← hall]
    show o.set name t = (o.set name t >>= pure)
    rw [bind_pure]
  | texts ts =>
    rw [← hall]
    simp [setValue, field_eq_ok_iff.mpr hf, hshape ts rfl, Value.inputs, bind, Except.bind]

/-! ## Reading by name -/

/-- What the attributes are read as, in the order of the class. -/
def texts (o : Object) : List (Descriptor × Option Value) :=
  o.fields.map fun f => (f.about, f.slot.read)

theorem get_eq (o : Object) (name : String) :
    o.get name = match o.texts.find? (·.1.isNamed name) with
      | some a => .ok a.2
      | none => .error (.unknownAttribute o.cimType name) := by
  have hfind : o.texts.find? (·.1.isNamed name) =
      (o.field? name).map fun f => (f.about, f.slot.read) := List.find?_map
  rw [hfind]
  unfold get field
  cases o.field? name with
  | none => rfl
  | some f => rfl

/-- **What is read by name depends on the class and the texts only.** -/
theorem get_congr (hcls : x.cls = o.cls) (h : x.texts = o.texts) (name : String) :
    x.get name = o.get name := by
  rw [get_eq, get_eq, h, cimType, cimType, hcls]

theorem get_of_field? (h : o.field? name = some f) : o.get name = .ok f.slot.read := by
  simp [get, field_eq_ok_iff.mpr h, bind, Except.bind, pure, Except.pure]

theorem get_of_mem (h : o.cls.Labelled) (hf : f ∈ o.fields)
    (hname : f.about.isNamed name = true) : o.get name = .ok f.slot.read :=
  get_of_field? (field?_of_mem h hf hname)

end Object

namespace Entry

theorem attributes_ofObject (o : Object) : (ofObject o).attributes =
    SortedMap.ofList (o.texts.filterMap fun a => a.2.map (a.1.label, ·)) := by
  rw [Object.texts, List.filterMap_map]
  rfl

/-- **What is written depends on the rdf:ID, the class and the texts only.** -/
theorem ofObject_congr {o x : Object} (hrdfid : x.rdfid = o.rdfid) (hcls : x.cls = o.cls)
    (h : x.texts = o.texts) : ofObject x = ofObject o := by
  have hattributes : (ofObject x).attributes = (ofObject o).attributes := by
    rw [attributes_ofObject, attributes_ofObject, h]
  have htype : x.cimType = o.cimType := by rw [Object.cimType, Object.cimType, hcls]
  calc
    ofObject x = ⟨x.rdfid, x.cimType, (ofObject x).attributes⟩ := rfl
    _ = ofObject o := by rw [hrdfid, htype, hattributes]; rfl

/-- What is written are values of attributes, under their labels. -/
theorem read_of_mem_ofObject {o : Object} {e : String × Value}
    (he : e ∈ (ofObject o).attributes.entries) :
    ∃ f ∈ o.fields, f.about.label = e.1 ∧ f.slot.read = some e.2 := by
  obtain ⟨f, hf, hv⟩ :=
    List.mem_filterMap.mp (SortedMap.mem_of_get?_ofList (SortedMap.get?_eq_some_iff.mpr he))
  obtain ⟨v, hread, heq⟩ := Option.map_eq_some_iff.mp hv
  obtain ⟨hlabel, rfl⟩ := Prod.mk.inj heq
  exact ⟨f, hf, hlabel, hread⟩

/-- The value written for a label is what the attribute of the label is read as. -/
theorem get?_attributes_ofObject {o : Object} (h : o.cls.Labelled) {f : Field}
    (hf : f ∈ o.fields) : (ofObject o).attributes.get? f.about.label = f.slot.read := by
  have hnodup : ((o.fields.filterMap fun f => f.slot.read.map (f.about.label, ·)).map
      (·.1)).Nodup := by
    refine List.Nodup.sublist ?_ (Object.nodup_labels h)
    rw [List.map_filterMap]
    induction o.fields with
    | nil => exact .slnil
    | cons f fs ih =>
      cases hread : f.slot.read with
      | none => simpa [hread] using ih.cons f.about.label
      | some v => simpa [hread] using ih.cons_cons f.about.label
  cases hread : f.slot.read with
  | some v =>
    refine SortedMap.get?_ofList_of_mem hnodup (List.mem_filterMap.mpr ⟨f, hf, ?_⟩)
    rw [hread]
    rfl
  | none =>
    cases hget : (ofObject o).attributes.get? f.about.label with
    | none => rfl
    | some v =>
      -- A value under the label would be the value of the attribute with the label.
      obtain ⟨g, hg, hlabel, hv⟩ := read_of_mem_ofObject (SortedMap.get?_eq_some_iff.mp hget)
      have hsame : g = f := List.inj_on_of_nodup_map (Object.nodup_labels h) hg hf hlabel
      rw [hsame, hread] at hv
      exact nomatch hv

end Entry

end CimStore

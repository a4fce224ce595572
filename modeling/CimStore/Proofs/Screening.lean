import CimStore.Proofs.Accessors

/-!
# Which payloads are read

A payload is a list of entries. It is read if nothing is wrong with any of them; otherwise the first
entry with which something is wrong decides what the failure is, whatever comes behind it.

* `CimClass.Takes`, `CimClass.Refuses`: the values that a class takes under a name, and why it
  refuses the others;
* `Object.setValue_of_takes`, `Object.setValue_of_refuses`: a value that is taken is set text by
  text; one that is refused is not;
* `Entry.Valid`: there is nothing wrong with an entry on its own;
* `Entry.Offends`: what is wrong with an entry, given the rdf:IDs before it. The class comes first,
  then the attributes in the order of their names, and the rdf:ID last;
* `Entry.screened`: each list of entries is clean or has a first one that offends;
* `Entry.buildAll_clean`, `Entry.buildAll_offends`: what a payload gives in either case;
* `readObjects_screens`: so a payload is read if and only if it is clean.
-/

namespace CimStore

/-! ## Values of attributes -/

/-- The attribute takes the value: a list for a set only, and otherwise a text that can be
converted. -/
def Descriptor.Takes (d : Descriptor) : Value → Prop
  | .text t => d.sort.converts t = true
  | .texts _ => d.kind = .referenceSet

/-- The class has an attribute of the name, which takes the value. -/
def CimClass.Takes (c : CimClass) (a : String × Value) : Prop :=
  ∃ d, c.find? a.1 = some d ∧ d.Takes a.2

/-- Why a class refuses a value under a name. -/
inductive CimClass.Refuses (c : CimClass) : String × Value → Error → Prop
  | unknown {name : String} {v : Value} (hname : c.find? name = none) :
    c.Refuses (name, v) (.unknownAttribute c.name name)
  | malformed {name text : String} {d : Descriptor} (hd : c.find? name = some d)
    (htext : d.sort.converts text = false) :
    c.Refuses (name, .text text) (.malformedValue d.fullName text)
  | shape {name : String} {texts : List String} {d : Descriptor} (hd : c.find? name = some d)
    (hkind : d.kind ≠ .referenceSet) :
    c.Refuses (name, .texts texts) (.invalidValueShape d.fullName)

theorem CimClass.takes_or_refuses (c : CimClass) (a : String × Value) :
    c.Takes a ∨ ∃ err, c.Refuses a err := by
  obtain ⟨name, v⟩ := a
  cases hd : c.find? name with
  | none => exact .inr ⟨_, .unknown hd⟩
  | some d =>
    cases v with
    | text t =>
      cases ht : d.sort.converts t with
      | true => exact .inl ⟨d, hd, ht⟩
      | false => exact .inr ⟨_, .malformed hd ht⟩
    | texts ts =>
      by_cases hkind : d.kind = .referenceSet
      · exact .inl ⟨d, hd, hkind⟩
      · exact .inr ⟨_, .shape hd hkind⟩

namespace Object

variable {o : Object} {d : Descriptor} {name : String} {v : Value}

theorem find?_fields (o : Object) (name : String) :
    (o.field? name).map Field.about = o.cls.find? name := by
  rw [field?, CimClass.find?, ← o.fields_about, List.find?_map]
  rfl

theorem exists_field (hd : o.cls.find? name = some d) :
    ∃ f, o.field? name = some f ∧ f.about = d :=
  Option.map_eq_some_iff.mp ((find?_fields o name).trans hd)

theorem set_of_converts {text : String} (hd : o.cls.find? name = some d)
    (htext : d.sort.converts text = true) :
    ∃ x, o.set name text = .ok x ∧ x.cls = o.cls ∧ x.rdfid = o.rdfid := by
  obtain ⟨f, hf, rfl⟩ := exists_field hd
  have hset := Access.result_of_field? hf (.set text)
  rcases Access.slot_cases (a := .set text) f.sort_slot with ⟨e, he, -⟩ | ⟨-, t, ht, -⟩
  · rw [Descriptor.refusal?, if_pos htext] at he
    cases he
  · exact ⟨o.replace name t, hset.trans (by rw [ht]; rfl), rfl, rfl⟩

theorem set_of_not_converts {text : String} (hd : o.cls.find? name = some d)
    (htext : d.sort.converts text = false) :
    o.set name text = .error (.malformedValue d.fullName text) := by
  obtain ⟨f, hf, rfl⟩ := exists_field hd
  have hset := Access.result_of_field? hf (.set text)
  rcases Access.slot_cases (a := .set text) f.sort_slot with ⟨e, he, hslot⟩ | ⟨hnone, -⟩
  · rw [Descriptor.refusal?, if_neg (by simp [htext])] at he
    obtain rfl := Option.some.inj he
    exact hset.trans (by rw [hslot]; rfl)
  · rw [Descriptor.refusal?, if_neg (by simp [htext])] at hnone
    cases hnone

/-- A set takes any texts. -/
theorem setAll_of_referenceSet (hd : o.cls.find? name = some d) (hkind : d.kind = .referenceSet)
    (texts : List String) :
    ∃ x, o.setAll name texts = .ok x ∧ x.cls = o.cls ∧ x.rdfid = o.rdfid := by
  induction texts generalizing o with
  | nil => exact ⟨o, rfl, rfl, rfl⟩
  | cons text texts ih =>
    have hconverts : d.sort.converts text = true := by
      unfold Descriptor.kind at hkind
      cases hsort : d.sort with
      | string | boolean | reference | referenceSet => rfl
      | float | integer | phaseCode =>
        rw [hsort] at hkind
        exact nomatch hkind
    obtain ⟨x, hx, hcls, hrdfid⟩ := set_of_converts hd hconverts
    obtain ⟨y, hy, hcls', hrdfid'⟩ := ih (hcls ▸ hd)
    refine ⟨y, ?_, hcls'.trans hcls, hrdfid'.trans hrdfid⟩
    show (o.set name text >>= fun x => x.setAll name texts) = _
    rw [hx]
    exact hy

/-- **A value that the class takes is set text by text.** -/
theorem setValue_of_takes (h : o.cls.Takes (name, v)) :
    ∃ x, o.setValue name v = .ok x ∧ o.setAll name v.inputs = .ok x ∧
      x.cls = o.cls ∧ x.rdfid = o.rdfid := by
  obtain ⟨d, hd, htakes⟩ := h
  cases v with
  | text t =>
    obtain ⟨x, hx, hsame⟩ := set_of_converts hd htakes
    exact ⟨x, hx, by rw [setAll, Value.inputs, List.foldlM_cons, hx]; rfl, hsame⟩
  | texts ts =>
    obtain ⟨x, hx, hsame⟩ := setAll_of_referenceSet hd htakes ts
    obtain ⟨f, hf, rfl⟩ := exists_field hd
    refine ⟨x, ?_, hx, hsame⟩
    rw [setValue, field_eq_ok_iff.mpr hf]
    exact (if_pos htakes).trans hx

/-- **A value that the class refuses is not set**, for the reason that there is. -/
theorem setValue_of_refuses {err : Error} (h : o.cls.Refuses (name, v) err) :
    o.setValue name v = .error err := by
  cases h with
  | unknown hname =>
    have hnone : o.field? name = none :=
      Option.map_eq_none_iff.mp ((find?_fields o name).trans hname)
    have hfield : o.field name = .error (.unknownAttribute o.cls.name name) := by
      rw [field, hnone]
      rfl
    cases v with
    | text t => rw [setValue, set, hfield]; rfl
    | texts ts => rw [setValue, hfield]; rfl
  | malformed hd htext => exact set_of_not_converts hd htext
  | shape hd hkind =>
    obtain ⟨f, hf, rfl⟩ := exists_field hd
    rw [setValue, field_eq_ok_iff.mpr hf]
    exact if_neg hkind

/-- Sets texts one after the other, each under its name. -/
def setEach (o : Object) (texts : List (String × String)) : Except Error Object :=
  texts.foldlM (fun o t => o.set t.1 t.2) o

theorem setAll_eq_setEach (o : Object) (name : String) (texts : List String) :
    o.setAll name texts = o.setEach (texts.map (name, ·)) := by
  rw [setAll, setEach, List.foldlM_map]

theorem setValues_of_takes {as : List (String × Value)} (h : ∀ a ∈ as, o.cls.Takes a) :
    ∃ x, as.foldlM (fun o a => o.setValue a.1 a.2) o = .ok x ∧
      o.setEach (as.flatMap fun a => a.2.inputs.map (a.1, ·)) = .ok x ∧
      x.cls = o.cls ∧ x.rdfid = o.rdfid := by
  induction as generalizing o with
  | nil => exact ⟨o, rfl, rfl, rfl, rfl⟩
  | cons a as ih =>
    obtain ⟨x, hx, hall, hcls, hrdfid⟩ := setValue_of_takes (h a (List.mem_cons_self ..))
    obtain ⟨y, hy, heach, hcls', hrdfid'⟩ :=
      ih fun b hb => hcls ▸ h b (List.mem_cons_of_mem _ hb)
    refine ⟨y, ?_, ?_, hcls'.trans hcls, hrdfid'.trans hrdfid⟩
    · rw [List.foldlM_cons, hx]
      exact hy
    · rw [List.flatMap_cons, setEach, List.foldlM_append, ← setEach, ← setAll_eq_setEach, hall]
      exact heach

theorem setValues_of_refuses {pre post : List (String × Value)} {a : String × Value} {err : Error}
    (hpre : ∀ b ∈ pre, o.cls.Takes b) (ha : o.cls.Refuses a err) :
    (pre ++ a :: post).foldlM (fun o a => o.setValue a.1 a.2) o = .error err := by
  obtain ⟨x, hx, -, hcls, -⟩ := setValues_of_takes hpre
  rw [List.foldlM_append, hx]
  show (x.setValue a.1 a.2 >>= fun x => post.foldlM _ x) = _
  rw [setValue_of_refuses (hcls ▸ ha)]
  rfl

end Object

/-! ## Entries -/

namespace Entry

variable {known : Catalog} {e : Entry} {c : CimClass} {o : Object} {err : Error}

/-- The rdf:ID that the object of the entry is kept under. -/
def keptId (e : Entry) : String := normalizeId e.rdfid

/-- The texts of the entry, in the order in which they are set. -/
def settings (e : Entry) : List (String × String) :=
  e.attributes.entries.flatMap fun a => a.2.inputs.map (a.1, ·)

/-- The object of the entry before anything is set. -/
def fresh (e : Entry) (c : CimClass) : Object := { Object.new c with rdfid := e.keptId }

/-- The object is made of the entry by setting its texts. -/
structure Makes (known : Catalog) (e : Entry) (o : Object) : Prop where
  known : known.get? e.cimType = some o.cls
  rdfid : o.rdfid = e.keptId
  texts : (e.fresh o.cls).setEach e.settings = .ok o

/-- There is nothing wrong with the entry on its own. -/
def Valid (known : Catalog) (e : Entry) : Prop :=
  ∃ c, known.get? e.cimType = some c ∧ (∀ a ∈ e.attributes.entries, c.Takes a) ∧ e.keptId ≠ ""

/-- What is wrong with an entry that comes after objects with the rdf:IDs `before`. -/
inductive Offends (known : Catalog) (before : List String) (e : Entry) : Error → Prop
  | unknownClass (hc : known.get? e.cimType = none) :
    e.Offends known before (.unknownClass e.cimType)
  | refused {c : CimClass} {pre post : List (String × Value)} {a : String × Value} {err : Error}
    (hc : known.get? e.cimType = some c) (heq : e.attributes.entries = pre ++ a :: post)
    (hpre : ∀ b ∈ pre, c.Takes b) (ha : c.Refuses a err) : e.Offends known before err
  | withoutId {c : CimClass} (hc : known.get? e.cimType = some c)
    (hall : ∀ a ∈ e.attributes.entries, c.Takes a) (hid : e.keptId = "") :
    e.Offends known before (.interchange (.withoutId c.name))
  | duplicateId {c : CimClass} (hc : known.get? e.cimType = some c)
    (hall : ∀ a ∈ e.attributes.entries, c.Takes a) (hid : e.keptId ≠ "")
    (hbefore : e.keptId ∈ before) :
    e.Offends known before (.interchange (.duplicateId e.keptId))

/-- Something is wrong with the first of the values that is not taken, if there is one. -/
theorem takes_or_offends (hc : known.get? e.cimType = some c) (before : List String) :
    (∀ a ∈ e.attributes.entries, c.Takes a) ∨ ∃ err, e.Offends known before err := by
  suffices ∀ as post, e.attributes.entries = as ++ post →
      (∀ a ∈ as, c.Takes a) ∨ ∃ err, e.Offends known before err from
    this _ [] (List.append_nil _).symm
  intro as
  induction as using List.reverseRecOn with
  | nil => exact fun _ _ => .inl fun a ha => absurd ha List.not_mem_nil
  | append_singleton as a ih =>
    intro post heq
    rw [List.append_assoc] at heq
    rcases ih _ heq with hall | herr
    · rcases c.takes_or_refuses a with htakes | ⟨err, hrefuses⟩
      · refine .inl fun b hb => ?_
        rcases List.mem_append.mp hb with hb | hb
        · exact hall b hb
        · exact List.mem_singleton.mp hb ▸ htakes
      · exact .inr ⟨err, .refused hc heq hall hrefuses⟩
    · exact .inr herr

theorem valid_or_offends (known : Catalog) (before : List String) (e : Entry) :
    e.Valid known ∧ e.keptId ∉ before ∨ ∃ err, e.Offends known before err := by
  cases hc : known.get? e.cimType with
  | none => exact .inr ⟨_, .unknownClass hc⟩
  | some c =>
    rcases takes_or_offends hc before with hall | herr
    · by_cases hid : e.keptId = ""
      · exact .inr ⟨_, .withoutId hc hall hid⟩
      · by_cases hbefore : e.keptId ∈ before
        · exact .inr ⟨_, .duplicateId hc hall hid hbefore⟩
        · exact .inl ⟨⟨c, hc, hall, hid⟩, hbefore⟩
    · exact .inr herr

theorem build_eq (hc : known.get? e.cimType = some c) : e.build known =
    e.attributes.entries.foldlM (fun o a => o.setValue a.1 a.2) (e.fresh c) := by
  rw [build, Catalog.newObject, Catalog.find_eq_ok_iff.mpr hc]
  rfl

theorem build_of_takes (hc : known.get? e.cimType = some c)
    (hall : ∀ a ∈ e.attributes.entries, c.Takes a) :
    ∃ o, e.build known = .ok o ∧ o.cls = c ∧ e.Makes known o := by
  obtain ⟨o, hbuild, heach, hcls, hrdfid⟩ := Object.setValues_of_takes (o := e.fresh c) hall
  have hcls : o.cls = c := hcls
  exact ⟨o, (build_eq hc).trans hbuild, hcls, hcls ▸ hc, hrdfid, hcls ▸ heach⟩

/-! ## Payloads -/

/-- There is nothing wrong with the entries. -/
structure Clean (known : Catalog) (es : List Entry) : Prop where
  valid : ∀ e ∈ es, e.Valid known
  distinct : (es.map keptId).Nodup

/-- There is one object for each entry, kept under its own rdf:ID. -/
structure AreMade (known : Catalog) (es : List Entry) (objects : SortedMap String Object) :
    Prop where
  keys : objects.keys.Perm (es.map keptId)
  objects : ∀ e ∈ es, ∃ o, objects.get? e.keptId = some o ∧ e.Makes known o

theorem clean_nil : Clean known [] where
  valid := fun _ h => nomatch h
  distinct := List.nodup_nil

theorem areMade_nil : AreMade known [] SortedMap.empty where
  keys := .nil
  objects := fun _ h => nomatch h

variable {pre es post : List Entry} {objects : SortedMap String Object}

theorem clean_append_singleton :
    Clean known (es ++ [e]) ↔ Clean known es ∧ e.Valid known ∧ e.keptId ∉ es.map keptId := by
  have hvalid : (∀ a ∈ es ++ [e], a.Valid known) ↔ (∀ a ∈ es, a.Valid known) ∧ e.Valid known := by
    simp only [List.mem_append, List.mem_singleton, or_imp, forall_and, forall_eq]
  have hdistinct : ((es ++ [e]).map keptId).Nodup ↔
      (es.map keptId).Nodup ∧ e.keptId ∉ es.map keptId := by
    rw [List.map_append, List.map_singleton, List.nodup_append_comm, List.singleton_append,
      List.nodup_cons, and_comm]
  constructor
  · rintro ⟨h, h'⟩
    exact ⟨⟨(hvalid.mp h).1, (hdistinct.mp h').1⟩, (hvalid.mp h).2, (hdistinct.mp h').2⟩
  · rintro ⟨⟨h, h'⟩, he, hnew⟩
    exact ⟨hvalid.mpr ⟨h, he⟩, hdistinct.mpr ⟨h', hnew⟩⟩

theorem Clean.of_append (h : Clean known (es ++ post)) : Clean known es where
  valid := fun e he => h.valid e (List.mem_append_left _ he)
  distinct := by
    have hdistinct := h.distinct
    rw [List.map_append] at hdistinct
    exact hdistinct.of_append_left

/-- **Entries are clean, or there is a first one that offends.** -/
theorem screened (known : Catalog) (es : List Entry) : Clean known es ∨
    ∃ pre e post err, es = pre ++ e :: post ∧ Clean known pre ∧
      e.Offends known (pre.map keptId) err := by
  induction es using List.reverseRecOn with
  | nil => exact .inl clean_nil
  | append_singleton es e ih =>
    rcases ih with hclean | ⟨pre, e', post, err, rfl, hpre, herr⟩
    · rcases valid_or_offends known (es.map keptId) e with hvalid | ⟨err, herr⟩
      · exact .inl (clean_append_singleton.mpr ⟨hclean, hvalid⟩)
      · exact .inr ⟨es, e, [], err, rfl, hclean, herr⟩
    · exact .inr ⟨pre, e', post ++ [e], err, by simp, hpre, herr⟩

theorem AreMade.contains_iff (h : AreMade known es objects) {t : String} :
    objects.contains t = true ↔ t ∈ es.map keptId := by
  rw [SortedMap.contains_iff, ← SortedMap.mem_keys, h.keys.mem_iff]

theorem AreMade.insert (h : AreMade known es objects) (hnew : e.keptId ∉ es.map keptId)
    (ho : e.Makes known o) : AreMade known (es ++ [e]) (objects.insert e.keptId o) where
  keys := by
    have hfree : objects.contains e.keptId = false :=
      Bool.eq_false_iff.mpr fun hold => hnew (h.contains_iff.mp hold)
    rw [List.map_append]
    calc (objects.insert e.keptId o).keys
      List.Perm _ (e.keptId :: objects.keys) := (SortedMap.perm_entries_insert hfree o).map Prod.fst
      List.Perm _ (e.keptId :: es.map keptId) := h.keys.cons _
      List.Perm _ (es.map keptId ++ [e].map keptId) := (List.perm_append_singleton _ _).symm
  objects := by
    intro a ha
    rw [SortedMap.get?_insert]
    rcases List.mem_append.mp ha with ha | ha
    · have hne : e.keptId ≠ a.keptId := fun heq => hnew (heq ▸ List.mem_map_of_mem ha)
      rw [if_neg hne]
      exact h.objects a ha
    · obtain rfl := List.mem_singleton.mp ha
      exact ⟨o, if_pos rfl, ho⟩

/-- An entry with which nothing is wrong is read after those before it. -/
theorem buildAll_cons (h : AreMade known pre objects) (hvalid : e.Valid known)
    (hnew : e.keptId ∉ pre.map keptId) : ∃ o, e.Makes known o ∧ ∀ post,
      buildAll known (e :: post) objects = buildAll known post (objects.insert e.keptId o) := by
  obtain ⟨c, hc, hall, hid⟩ := hvalid
  obtain ⟨o, hbuild, -, hmakes⟩ := build_of_takes hc hall
  have hfree : ¬objects.contains e.keptId = true := fun hold => hnew (h.contains_iff.mp hold)
  refine ⟨o, hmakes, fun post => ?_⟩
  rw [buildAll, hbuild, ← hmakes.rdfid]
  show (if o.rdfid = "" then _ else if objects.contains o.rdfid then _ else _) = _
  rw [hmakes.rdfid, if_neg hid, if_neg hfree]

/-- **Clean entries are read**, each as an object of its own, and then those behind them. -/
theorem buildAll_clean (h : AreMade known pre objects) (hclean : Clean known (pre ++ es)) :
    ∃ objects', AreMade known (pre ++ es) objects' ∧
      ∀ post, buildAll known (es ++ post) objects = buildAll known post objects' := by
  induction es generalizing pre objects with
  | nil => exact ⟨objects, (List.append_nil pre).symm ▸ h, fun _ => rfl⟩
  | cons e es ih =>
    rw [List.append_cons] at hclean ⊢
    obtain ⟨-, hvalid, hnew⟩ := clean_append_singleton.mp hclean.of_append
    obtain ⟨o, hmakes, hstep⟩ := buildAll_cons h hvalid hnew
    obtain ⟨objects', hmade, hrest⟩ := ih (h.insert hnew hmakes) hclean
    exact ⟨objects', hmade, fun post => (hstep _).trans (hrest post)⟩

/-- **An entry that offends decides the failure**, whatever is behind it. -/
theorem buildAll_offends (h : AreMade known pre objects)
    (herr : e.Offends known (pre.map keptId) err) :
    buildAll known (e :: es) objects = .error err := by
  rw [buildAll]
  cases herr with
  | unknownClass hc =>
    rw [build, Catalog.newObject, Catalog.find, hc]
    rfl
  | refused hc heq hpre ha =>
    rw [build_eq hc, heq, Object.setValues_of_refuses (o := e.fresh _) hpre ha]
    rfl
  | withoutId hc hall hid =>
    obtain ⟨o, hbuild, rfl, hmakes⟩ := build_of_takes hc hall
    rw [hbuild]
    exact if_pos (hmakes.rdfid.trans hid)
  | duplicateId hc hall hid hbefore =>
    obtain ⟨o, hbuild, rfl, hmakes⟩ := build_of_takes hc hall
    rw [hbuild, ← hmakes.rdfid]
    show (if o.rdfid = "" then _ else if objects.contains o.rdfid then _ else _) = _
    rw [hmakes.rdfid, if_neg hid, if_pos (h.contains_iff.mpr hbefore)]

/-- What reading the entries comes to. -/
structure Screens (known : Catalog) (es : List Entry)
    (result : Except Error (SortedMap String Object)) : Prop where
  accepted : (∃ objects, result = .ok objects) ↔ Clean known es
  made : ∀ objects, result = .ok objects → AreMade known es objects
  /-- The first entry that offends decides the failure. -/
  refused : ∀ err, result = .error err ↔ ∃ pre e post, es = pre ++ e :: post ∧
    Clean known pre ∧ e.Offends known (pre.map keptId) err

theorem screens_buildAll (known : Catalog) (es : List Entry) :
    Screens known es (buildAll known es SortedMap.empty) := by
  have hok : Clean known es → ∃ objects, buildAll known es SortedMap.empty = .ok objects ∧
      AreMade known es objects := fun hclean => by
    obtain ⟨objects, hmade, hrest⟩ := buildAll_clean areMade_nil hclean
    exact ⟨objects, List.append_nil es ▸ hrest [], hmade⟩
  have herror : ∀ pre e post err, es = pre ++ e :: post → Clean known pre →
      e.Offends known (pre.map keptId) err → buildAll known es SortedMap.empty = .error err := by
    rintro pre e post err rfl hpre herr
    obtain ⟨objects, hmade, hrest⟩ := buildAll_clean areMade_nil hpre
    exact (hrest _).trans (buildAll_offends hmade herr)
  rcases screened known es with hclean | ⟨pre, e, post, err, heq, hpre, herr⟩
  · obtain ⟨objects, hresult, hmade⟩ := hok hclean
    rw [hresult]
    exact {
      accepted := iff_of_true ⟨objects, rfl⟩ hclean
      made := fun objects' h => Except.ok.inj h ▸ hmade
      refused := fun err => by
        refine iff_of_false (fun h => nomatch h) ?_
        rintro ⟨pre, e, post, heq, hpre, herr⟩
        exact nomatch hresult.symm.trans (herror pre e post err heq hpre herr)
    }
  · have hresult := herror pre e post err heq hpre herr
    rw [hresult]
    exact {
      accepted := by
        refine iff_of_false (fun ⟨_, h⟩ => nomatch h) fun hclean => ?_
        obtain ⟨objects, hobjects, -⟩ := hok hclean
        exact nomatch hobjects.symm.trans hresult
      made := fun _ h => nomatch h
      refused := fun err' => by
        constructor
        · intro h
          exact Except.error.inj h ▸ ⟨pre, e, post, heq, hpre, herr⟩
        · rintro ⟨pre', e', post', heq', hpre', herr'⟩
          exact hresult.symm.trans (herror pre' e' post' err' heq' hpre' herr')
    }

end Entry

/-- **A payload is read if and only if nothing is wrong with its entries**: each is of a known
class, gives attributes of this class values that they take, and has an rdf:ID that is not empty and
not that of another entry. Then there is one object for each entry, made by setting its texts in the
order of the names. Otherwise the failure is that of the first entry that offends. -/
theorem readObjects_screens {known : Catalog} {payload : String} {es : List Entry}
    (h : Entry.readAll payload = .ok es) : Entry.Screens known es (readObjects known payload) := by
  rw [readObjects, h]
  exact Entry.screens_buildAll known es

namespace SmallGrid

/-- A payload of a busbar section with a mark before its rdf:ID. -/
def sectionPayload : String := "[[\"#_b1\", \"BusbarSection\", \x7b\"ipMax\": \"2500\"\x7d]]"

def sectionEntry : Entry := ⟨"#_b1", "BusbarSection", ⟨[("ipMax", .text "2500")], by simp⟩⟩

/-- A payload of a busbar section without an rdf:ID and with a number that is none, and of an object
of an unknown class. -/
def faultyPayload : String :=
  "[[\" # \", \"BusbarSection\", \x7b\"ipMax\": \"x\"\x7d], [\"_b\", \"Bay\"]]"

def faultyEntry : Entry := ⟨" # ", "BusbarSection", ⟨[("ipMax", .text "x")], by simp⟩⟩

end SmallGrid

/-- The one section is read. Of the faults of the other payload the number is the first. -/
theorem readObjects_screens_sections :
    Entry.readAll SmallGrid.sectionPayload = .ok [SmallGrid.sectionEntry] ∧
    (∃ objects, readObjects .standard SmallGrid.sectionPayload = .ok objects ∧
      objects.keys = ["_b1"]) ∧
    Entry.readAll SmallGrid.faultyPayload =
      .ok [SmallGrid.faultyEntry, ⟨"_b", "Bay", SortedMap.empty⟩] ∧
    readObjects .standard SmallGrid.faultyPayload =
      .error (.malformedValue "BusbarSection.ipMax" "x") := by
  have hsection : Entry.readAll SmallGrid.sectionPayload = .ok [SmallGrid.sectionEntry] := by
    decide +kernel
  have hfaulty : Entry.readAll SmallGrid.faultyPayload =
      .ok [SmallGrid.faultyEntry, ⟨"_b", "Bay", SortedMap.empty⟩] := by decide +kernel
  have hknown : Catalog.standard.get? "BusbarSection" = some .busbarSection := by decide +kernel
  have hnumber : CimClass.busbarSection.find? "ipMax" =
      some ⟨"BusbarSection.ipMax", .float, [], true, cimNamespace⟩ := by decide +kernel
  refine ⟨hsection, ?_, hfaulty, ?_⟩
  · have hclean : Entry.Clean .standard [SmallGrid.sectionEntry] := by
      refine ⟨fun e he => ?_, by simp⟩
      obtain rfl := List.mem_singleton.mp he
      refine ⟨_, hknown, fun a ha => ?_, by decide +kernel⟩
      obtain rfl := List.mem_singleton.mp ha
      have hconverts : AttributeSort.float.converts "2500" = true := by decide +kernel
      exact ⟨_, hnumber, hconverts⟩
    obtain ⟨objects, hobjects⟩ := (readObjects_screens hsection).accepted.mpr hclean
    refine ⟨objects, hobjects, ?_⟩
    have hkeys := ((readObjects_screens hsection).made objects hobjects).keys
    rw [List.perm_singleton.mp hkeys]
    decide +kernel
  · have hparts : SmallGrid.faultyEntry.attributes.entries = [] ++ ("ipMax", .text "x") :: [] := rfl
    refine ((readObjects_screens hfaulty).refused _).mpr ⟨[], _, _, rfl, Entry.clean_nil, ?_⟩
    exact .refused hknown hparts (fun b hb => nomatch hb)
      (.malformed hnumber (by decide +kernel))

end CimStore

import CimStore.Proofs.Accounting

/-!
# Attributes looked up by name

One lookup serves two kinds of names, the labels and the full names, and takes the first attribute
that goes by the name. In a class with distinct labels none stands in the way of another:

* `CimClass.get_eq_ok_iff`, `CimClass.get_eq_error_iff`: what a lookup gives, and when it fails;
* `CimClass.index_eq_of_isNamed`: a name belongs to the attribute at one place;
* `Entry.byName`: an entry that is written by walking the labels and reading each by its name;
* `CimClass.Labelled.reaches`: lookups reach each attribute under both of its names, and a walk over
  the labels, that of the linker and that of the writer, visits each once.
-/

namespace CimStore

theorem Descriptor.isNamed_iff {d : Descriptor} {name : String} :
    d.isNamed name = true ↔ d.label = name ∨ d.fullName = name := by
  simp [isNamed]

namespace CimClass

variable {c : CimClass} {d : Descriptor} {name : String}

/-! ## Lookups in a class -/

/-- Attributes that share a name stand at one place. -/
theorem index_eq_of_isNamed (h : c.Labelled) {i j : Nat} {e : Descriptor}
    (hi : c.attributes[i]? = some d) (hj : c.attributes[j]? = some e)
    (hd : d.isNamed name = true) (he : e.isNamed name = true) : i = j := by
  have hlabel := Descriptor.label_eq_of_isNamed hd he
  obtain ⟨hlt, -⟩ := List.getElem?_eq_some_iff.mp hi
  have hlength : i < c.labels.length := by simpa [labels] using hlt
  refine (List.getElem?_inj hlength h).mp ?_
  rw [labels, List.getElem?_map, List.getElem?_map, hi, hj]
  exact congrArg some hlabel

/-- An attribute is found by each of its names. -/
theorem find?_of_mem (h : c.Labelled) (hd : d ∈ c.attributes) (hname : d.isNamed name = true) :
    c.find? name = some d := by
  unfold find?
  cases hfind : c.attributes.find? (·.isNamed name) with
  | none => exact absurd hname (List.find?_eq_none.mp hfind d hd)
  | some e =>
    have he : e ∈ c.attributes := List.mem_of_find?_eq_some hfind
    have hnamed : e.isNamed name = true := by simpa using List.find?_some hfind
    rw [List.inj_on_of_nodup_map h he hd (Descriptor.label_eq_of_isNamed hnamed hname)]

/-- **A lookup gives the attribute of the name.** -/
theorem get_eq_ok_iff (h : c.Labelled) :
    c.get name = .ok d ↔ d ∈ c.attributes ∧ d.isNamed name = true := by
  constructor
  · intro hget
    unfold get at hget
    cases hfind : c.find? name with
    | none => simp [hfind] at hget
    | some e =>
      obtain rfl : e = d := by simpa [hfind] using hget
      exact ⟨List.mem_of_find?_eq_some hfind, by simpa using List.find?_some hfind⟩
  · rintro ⟨hd, hname⟩
    rw [get, find?_of_mem h hd hname]

/-- **A lookup fails for the names of no attribute**, whatever the labels. -/
theorem get_eq_error_iff {e : Error} : c.get name = .error e ↔
    e = .unknownAttribute c.name name ∧ ∀ d ∈ c.attributes, ¬d.isNamed name = true := by
  unfold get
  cases hfind : c.find? name with
  | none =>
    have hnone : ∀ d ∈ c.attributes, ¬d.isNamed name = true := List.find?_eq_none.mp hfind
    rw [Except.error.injEq, and_iff_left hnone, eq_comm]
  | some d =>
    have hd : d ∈ c.attributes := List.mem_of_find?_eq_some hfind
    have hnamed : d.isNamed name = true := by simpa using List.find?_some hfind
    simp only [reduceCtorEq, false_iff, not_and, not_forall]
    exact fun _ => ⟨d, hd, fun hnot => hnot hnamed⟩

/-- **A walk over the labels looks up each attribute once**, in the order of declaration. -/
theorem mapM_get_labels (h : c.Labelled) : c.labels.mapM c.get = .ok c.attributes := by
  have hget : ∀ ds : List Descriptor, (∀ d ∈ ds, d ∈ c.attributes) →
      (ds.map Descriptor.label).mapM c.get = .ok ds := by
    intro ds hds
    induction ds with
    | nil => rfl
    | cons d ds ih =>
      have hfirst : c.get d.label = .ok d :=
        (get_eq_ok_iff h).mpr ⟨hds d (List.mem_cons_self ..), d.isNamed_label⟩
      rw [List.map_cons, List.mapM_cons, hfirst, ih fun e he => hds e (List.mem_cons_of_mem _ he)]
      rfl
  exact hget c.attributes fun _ hd => hd

end CimClass

/-! ## Writing by name -/

namespace Entry

/-- The entry of an object, its attributes read one after the other by their labels. -/
def byName (o : Object) : Except Error Entry := do
  let attributes ← o.cls.labels.foldlM (fun attributes label => do
    match ← o.get label with
    | some value => return attributes.insert label value
    | none => return attributes) SortedMap.empty
  return ⟨o.rdfid, o.cimType, attributes⟩

/-- **An entry is written by name as from the fields**, and no attribute is unknown. -/
theorem byName_eq {o : Object} (h : o.cls.Labelled) : byName o = .ok (ofObject o) := by
  have hwalk : ∀ (fs : List Field) (m : SortedMap String Value), (∀ f ∈ fs, f ∈ o.fields) →
      (fs.map fun f => f.about.label).foldlM (fun (attributes : SortedMap String Value) label => do
        match ← o.get label with
        | some value => return attributes.insert label value
        | none => return attributes) m =
      (.ok ((fs.filterMap fun f => f.slot.read.map (f.about.label, ·)).foldl
        (fun m e => m.insert e.1 e.2) m) : Except Error _) := by
    intro fs m hfs
    induction fs generalizing m with
    | nil => rfl
    | cons f fs ih =>
      have hget : o.get f.about.label = .ok f.slot.read :=
        Object.get_of_mem h (hfs f (List.mem_cons_self ..)) f.about.isNamed_label
      have hrest := fun m => ih m fun g hg => hfs g (List.mem_cons_of_mem _ hg)
      rw [List.map_cons, List.foldlM_cons, hget]
      cases hread : f.slot.read with
      | none =>
        rw [List.filterMap_cons_none (by rw [hread]; rfl)]
        exact hrest m
      | some v =>
        rw [List.filterMap_cons_some (by rw [hread]; rfl)]
        exact hrest _
  rw [byName, ← o.labels_fields, hwalk o.fields _ fun _ hf => hf]
  rfl

end Entry

/-! ## Every attribute is reached -/

/-- What lookups by name reach in a class. -/
structure CimClass.Reaches (c : CimClass) : Prop where
  /-- Both names of the attribute at a place lead to it, and to no other place. -/
  reached : ∀ (i : Nat) (d : Descriptor), c.attributes[i]? = some d →
    ∀ name, name = d.label ∨ name = d.fullName → c.get name = .ok d ∧
      ∀ (j : Nat) (e : Descriptor), c.attributes[j]? = some e → e.isNamed name = true → j = i
  /-- The labels stand in the order of declaration, each once. -/
  listed : ∀ (i : Nat) (d : Descriptor), c.attributes[i]? = some d →
    c.labels[i]? = some d.label ∧ c.labels.count d.label = 1
  /-- A lookup fails for the texts that are no name of an attribute, and for no others. -/
  unknown : ∀ name e, c.get name = .error e ↔ e = .unknownAttribute c.name name ∧
    name ∉ c.labels ∧ name ∉ c.attributes.map Descriptor.fullName
  /-- The labels, each looked up again, give all attributes in their order. -/
  walked : c.labels.mapM c.get = .ok c.attributes
  /-- The linker and the writer walk the labels. Both do what is done from field to field. -/
  linked : ∀ o : Object, o.cls = c → ∀ links, ∃ report,
    o.visitAll links c.labels = .ok ((o.linkAll links).1, report) ∧
      (o.linkAll links).2 = { objects := 1 } ++ report
  written : ∀ o : Object, o.cls = c → Entry.byName o = .ok (Entry.ofObject o)

/-- **Every attribute is reached by name.** Where the labels of a class are distinct, no label
stands in the way of a full name, nor a full name in that of a label. -/
theorem CimClass.Labelled.reaches {c : CimClass} (h : c.Labelled) : c.Reaches where
  reached := by
    intro i d hd name hname
    have hnamed : d.isNamed name = true :=
      Descriptor.isNamed_iff.mpr (hname.imp Eq.symm Eq.symm)
    refine ⟨(get_eq_ok_iff h).mpr ⟨List.mem_of_getElem? hd, hnamed⟩, fun j e he hshared => ?_⟩
    exact index_eq_of_isNamed h he hd hshared hnamed
  listed := by
    intro i d hd
    refine ⟨by rw [labels, List.getElem?_map, hd]; rfl, List.count_eq_one_of_mem h ?_⟩
    exact List.mem_map_of_mem (List.mem_of_getElem? hd)
  unknown := by
    intro name e
    rw [get_eq_error_iff]
    refine and_congr_right fun _ => ?_
    simp only [Descriptor.isNamed_iff, labels, List.mem_map, not_or, not_exists, not_and]
    exact forall₂_and
  walked := mapM_get_labels h
  linked := by
    rintro o rfl links
    exact Object.visitAll_eq h
  written := by
    rintro o rfl
    exact Entry.byName_eq h

namespace CimClass

/-- Full names of all shapes: with several points, with a point at the end, without any. -/
def gauge : CimClass where
  name := "Gauge"
  groups := [[{ fullName := "Gauge.range.upper", sort := .float }],
    [{ fullName := "range.upper.", sort := .string }, { fullName := "Gauge", sort := .reference }],
    []]

theorem reaches_gauge : gauge.Labelled ∧
    gauge.get "upper" = .ok { fullName := "Gauge.range.upper", sort := .float } ∧
    gauge.get "" = .ok { fullName := "range.upper.", sort := .string } ∧
    gauge.get "Gauge" = .ok { fullName := "Gauge", sort := .reference } ∧
    gauge.get "range.upper" = .error (.unknownAttribute "Gauge" "range.upper") := by
  have hlabelled : gauge.Labelled := by decide +kernel
  have h := Labelled.reaches hlabelled
  refine ⟨hlabelled, (h.reached 0 _ rfl _ (.inl ?_)).1, (h.reached 1 _ rfl _ (.inl ?_)).1,
    (h.reached 2 _ rfl _ (.inr rfl)).1, (h.unknown _ _).mpr ⟨rfl, ?_, ?_⟩⟩
  all_goals decide +kernel

end CimClass

end CimStore

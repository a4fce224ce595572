import CimStore.Proofs.Visits

/-!
# The account of linking

Whatever a graph went through before, linking it visits each target of each used reference once and
touches nothing but links:

* `Graph.Accounts`: what a visit of all objects does and reports;
* `Graph.Built.pointer_cases`: every target is dangling, refused or linked;
* `Graph.Built.linkAll_accounts`: the account of a whole visit.
-/

namespace CimStore

/-! ## The account of a graph -/

/-- The object, but for its links. -/
structure Object.SameValues (o x : Object) : Prop where
  cls : x.cls = o.cls
  rdfid : x.rdfid = o.rdfid
  id : x.id = o.id
  model : x.model = o.model
  get : ∀ name, x.get name = o.get name

namespace Graph

/-- A graph as it is made and changed: objects are inserted, of which several may have one rdf:ID,
changed in any way at their places, and linked, in any order and any number of times. -/
inductive Built : Graph → Prop
  | new (model : Option Int) : Built { model }
  | insert {g : Graph} (o : Object) (h : Built g) : Built (g.insert o)
  | change {g : Graph} (position : Nat) (o : Object) (h : Built g) : Built (g.set position o)
  | link {g : Graph} (h : Built g) : Built g.linkAll.1
  | keep {g : Graph} (report : LinkReport) (h : Built g) : Built { g with report }

/-- The index only gives places of objects. -/
theorem Built.lt_length {g : Graph} (h : g.Built) {t : String} {p : Nat}
    (hp : g.index.get? t = some p) : p < g.objects.length := by
  induction h generalizing t p with
  | new model => exact nomatch hp
  | @insert g o _ ih =>
    simp only [Graph.insert, SortedMap.get?_insert, List.length_append, List.length_singleton]
      at hp ⊢
    split at hp
    · obtain rfl := Option.some.inj hp
      omega
    · have := ih hp
      omega
  | change position o _ ih => simpa [Graph.set] using ih hp
  | @link g _ ih =>
    have hlength : g.linkAll.1.objects.length = g.objects.length := by
      show (linkObjects g.links g.objects).1.length = _
      rw [linkObjects_fst, List.length_map]
    rw [hlength]
    exact ih hp
  | keep report _ ih => exact ih hp

/-- The table of links answers as the index does. -/
theorem get?_links_eq (g : Graph) (t : String) : g.links.get? t = g.link? t := by
  rw [links, SortedMap.get?_filterMap, link?]
  cases hp : g.index.get? t with
  | none => rfl
  | some p => cases ho : g.object? p <;> simp [ho]

theorem rdfid_of_link? {g : Graph} {t : String} {l : Link} (h : g.link? t = some l) :
    l.rdfid = t := by
  obtain ⟨p, -, h⟩ := Option.bind_eq_some_iff.mp h
  obtain ⟨o, -, h⟩ := Option.bind_eq_some_iff.mp h
  exact (congrArg Link.rdfid (Option.some.inj h)).symm

theorem map_cimType_link? (g : Graph) (t : String) :
    (g.link? t).map (·.cimType) = (g.get? t).map Object.cimType := by
  unfold link? get?
  cases hp : g.index.get? t with
  | none => rfl
  | some p => cases ho : g.object? p <;> simp [ho]

/-- An rdf:ID has no object if and only if the index does not have it. -/
theorem Built.get?_eq_none_iff {g : Graph} (h : g.Built) {t : String} :
    g.get? t = none ↔ g.index.contains t = false := by
  rw [get?, SortedMap.contains]
  cases hp : g.index.get? t with
  | none => simp
  | some p =>
    have hlt := h.lt_length hp
    simp [object?, hlt]

/-- The used references of all objects that hold a value. -/
def references (g : Graph) : List Field := g.objects.flatMap Object.references

/-- The targets of all objects that are visited, in order. -/
def pointers (g : Graph) : List Pointer := g.objects.flatMap Object.pointers

theorem linkObjects_snd (links : SortedMap String Link) (os : List Object) :
    (linkObjects links os).2 = LinkReport.ofPointers links os.length
      (os.flatMap Object.references).length (os.flatMap Object.pointers) := by
  induction os with
  | nil => rfl
  | cons o os ih =>
    show (o.linkAll links).2 ++ (linkObjects links os).2 = _
    rw [Object.linkAll_snd, ih, LinkReport.ofPointers_append]
    simp [Nat.add_comm]

theorem linkAll_snd (g : Graph) : g.linkAll.2 =
    LinkReport.ofPointers g.links g.objects.length g.references.length g.pointers :=
  linkObjects_snd g.links g.objects

/-- What becomes of a target, as the index and the classes of the objects say. -/
theorem diagnostic?_eq (g : Graph) (p : Pointer) : p.diagnostic? g.links =
    match g.get? p.target with
    | none => some (.dangling p.site)
    | some x =>
      if p.about.admits x.cimType then none
      else some (.failure (p.refusal x.cimType).1 (p.refusal x.cimType).2) := by
  have htype := g.map_cimType_link? p.target
  rw [Pointer.diagnostic?, get?_links_eq]
  cases hl : g.link? p.target with
  | none =>
    rw [hl] at htype
    have hnone : g.get? p.target = none := by simpa using htype.symm
    rw [hnone]
  | some l =>
    rw [hl] at htype
    obtain ⟨x, hx, hcls⟩ := Option.map_eq_some_iff.mp htype.symm
    have hcls : x.cimType = l.cimType := hcls
    simp only [hx, hcls]

/-- Whether a target is linked: its object has a class that the attribute admits. -/
def resolves (g : Graph) (p : Pointer) : Bool :=
  (g.get? p.target).any fun x => p.about.admits x.cimType

/-- The class of the object that the attribute does not admit. -/
def refused? (g : Graph) (p : Pointer) : Option String :=
  ((g.get? p.target).filter fun x => !p.about.admits x.cimType).map Object.cimType

/-- What linking a graph `g` does and reports, `g'` being the graph afterwards. -/
structure Accounts (g g' : Graph) (r : LinkReport) : Prop where
  /-- The objects stay in number and order, with their identities and values. -/
  frame : List.Forall₂ Object.SameValues g.objects g'.objects
  index : g'.index = g.index
  objects : r.objects = g.objects.length
  references : r.references = g.references.length
  /-- The targets that the index does not have. -/
  dangling : r.dangling = (g.pointers.filter fun p => !g.index.contains p.target).map Pointer.site
  /-- The targets whose objects are of a class that the attribute does not admit. -/
  failures : r.failures = g.pointers.filterMap fun p => (g.refused? p).map p.refusal
  /-- All others. -/
  resolved : r.resolved = (g.pointers.filter g.resolves).length
  /-- Nothing is reported twice, and nothing is left out. -/
  total : r.resolved + r.dangling.length + r.failures.length = g.pointers.length
  clean : r.isClean = true ↔ r.resolved = g.pointers.length
  /-- The diagnostics come in the order of the targets. -/
  diagnostics : r.diagnostics = g.pointers.filterMap (Pointer.diagnostic? g.links)

/-- **Every target is dangling, refused or linked**, and only one of these. -/
theorem Built.pointer_cases {g : Graph} (h : g.Built) (p : Pointer) :
    (g.index.contains p.target = false ∧ g.refused? p = none ∧ g.resolves p = false ∧
      p.diagnostic? g.links = some (.dangling p.site)) ∨
    (∃ cimType, g.index.contains p.target = true ∧ g.refused? p = some cimType ∧
      g.resolves p = false ∧
      p.diagnostic? g.links = some (.failure (p.refusal cimType).1 (p.refusal cimType).2)) ∨
    (g.index.contains p.target = true ∧ g.refused? p = none ∧ g.resolves p = true ∧
      p.diagnostic? g.links = none) := by
  have hindex := h.get?_eq_none_iff (t := p.target)
  rw [diagnostic?_eq, refused?, resolves]
  cases hx : g.get? p.target with
  | none => exact .inl ⟨hindex.mp hx, rfl, rfl, rfl⟩
  | some x =>
    have hcontains : g.index.contains p.target = true := by
      rw [← Bool.not_eq_false]
      intro hnot
      rw [hindex.mpr hnot] at hx
      exact nomatch hx
    by_cases hadmits : p.about.admits x.cimType
    · exact .inr (.inr ⟨hcontains, by simp [hadmits], by simp [hadmits], by simp [hadmits]⟩)
    · exact .inr (.inl ⟨x.cimType, hcontains, by simp [hadmits], by simp [hadmits],
        by simp [hadmits]⟩)

/-- The diagnostics of some targets, and the number of those without. -/
theorem Built.ofPointers_spec {g : Graph} (h : g.Built) (ps : List Pointer) :
    ((ps.filterMap (Pointer.diagnostic? g.links)).filterMap LinkDiagnostic.dangling? =
        (ps.filter fun p => !g.index.contains p.target).map Pointer.site) ∧
      ((ps.filterMap (Pointer.diagnostic? g.links)).filterMap LinkDiagnostic.failure? =
        ps.filterMap fun p => (g.refused? p).map p.refusal) ∧
      (ps.countP fun p => (p.diagnostic? g.links).isNone) = (ps.filter g.resolves).length ∧
      (ps.filter g.resolves).length + (ps.filter fun p => !g.index.contains p.target).length +
        (ps.filterMap fun p => (g.refused? p).map p.refusal).length = ps.length := by
  induction ps with
  | nil => exact ⟨rfl, rfl, rfl, rfl⟩
  | cons p ps ih =>
    obtain ⟨hdangling, hfailures, hresolved, htotal⟩ := ih
    rcases h.pointer_cases p with ⟨hindex, hrefused, hresolves, hdiagnostic⟩ |
      ⟨cimType, hindex, hrefused, hresolves, hdiagnostic⟩ |
      ⟨hindex, hrefused, hresolves, hdiagnostic⟩
    all_goals
      simp only [List.filterMap_cons, List.filter_cons, List.countP_cons, hindex, hrefused,
        hresolves, hdiagnostic, LinkDiagnostic.dangling?, LinkDiagnostic.failure?, hdangling,
        hfailures, hresolved]
      simp
      omega

/-- **The account of a visit.** -/
theorem Built.accounts {g : Graph} (h : g.Built) : g.Accounts g.linkAll.1 g.linkAll.2 := by
  have hreport := g.linkAll_snd
  obtain ⟨hdangling, hfailures, hresolved, htotal⟩ := h.ofPointers_spec g.pointers
  have hlinks : ∀ t l, g.links.get? t = some l → l.rdfid = t := fun t l hl =>
    rdfid_of_link? ((g.get?_links_eq t).symm.trans hl)
  have hdangling' : g.linkAll.2.dangling =
      (g.pointers.filter fun p => !g.index.contains p.target).map Pointer.site := by
    rw [hreport]
    exact hdangling
  have hfailures' : g.linkAll.2.failures =
      g.pointers.filterMap fun p => (g.refused? p).map p.refusal := by
    rw [hreport]
    exact hfailures
  have hresolved' : g.linkAll.2.resolved = (g.pointers.filter g.resolves).length := by
    rw [hreport]
    exact hresolved
  have htotal' : g.linkAll.2.resolved + g.linkAll.2.dangling.length +
      g.linkAll.2.failures.length = g.pointers.length := by
    rw [hdangling', hfailures', hresolved', List.length_map]
    exact htotal
  refine ⟨?_, rfl, ?_, ?_, hdangling', hfailures', hresolved', htotal', ?_, ?_⟩
  · show List.Forall₂ _ g.objects (linkObjects g.links g.objects).1
    rw [linkObjects_fst, List.forall₂_map_right_iff, List.forall₂_same]
    exact fun o _ => ⟨rfl, rfl, rfl, rfl, Object.get_congr rfl (Object.texts_linkAll hlinks o)⟩
  · rw [hreport]
    rfl
  · rw [hreport]
    rfl
  · rw [LinkReport.isClean, Bool.and_eq_true, List.isEmpty_iff_length_eq_zero,
      List.isEmpty_iff_length_eq_zero]
    omega
  · rw [hreport]
    rfl

/-- **Linking keeps account and touches no value.** In a graph made and changed in any way,
whatever was linked before, linking leaves the objects, their identities and values as they are, and
each target of a used reference is reported once: as dangling if the index does not have it, as a
failure if the attribute does not admit the class of its object, and else as resolved. Where the
labels of a class are distinct, visiting its attributes by their labels does the same and fails for
none of them. The sink of the service gets these diagnostics, in this order. -/
theorem Built.linkAll_accounts {g : Graph} (h : g.Built) :
    g.Accounts g.linkAll.1 g.linkAll.2 ∧
    (∀ o ∈ g.objects, o.cls.Labelled → o.pointers.Nodup ∧
      ∃ report, o.visitAll g.links o.cls.labels = .ok ((o.linkAll g.links).1, report) ∧
        (o.linkAll g.links).2 = { objects := 1 } ++ report) ∧
    ∀ s : Service, Service.link g s =
      (g.linkAll, { s with diagnostics := s.diagnostics ++ g.linkAll.2.diagnostics }) :=
  ⟨h.accounts, fun _ _ hlabels => ⟨Object.nodup_pointers hlabels, Object.visitAll_eq hlabels⟩,
    Service.link_eq g⟩

/-- The small grid with a second node of the same rdf:ID. After it was linked, the line was put in
the place of the first node. -/
def relinked : Graph :=
  ((((({ model := some 1 } : Graph).insert SmallGrid.island).insert SmallGrid.line).insert
    (SmallGrid.node "_n1")).insert (SmallGrid.node "_n1")).linkAll.1.set 2 SmallGrid.line

theorem built_relinked : relinked.Built :=
  .change 2 _ (.link (.insert _ (.insert _ (.insert _ (.insert _ (.new _))))))

/-- The line is linked to itself twice and the island to the node twice; one of its members is not
there and one is no node. -/
theorem Built.linkAll_accounts_relinked : relinked.Built ∧ relinked.linkAll.2.resolved = 4 ∧
    relinked.linkAll.2.dangling.length = 1 ∧ relinked.linkAll.2.failures.length = 1 := by
  obtain ⟨haccounts, -, -⟩ := Built.linkAll_accounts built_relinked
  have hresolved : (relinked.pointers.filter relinked.resolves).length = 4 := by decide +kernel
  have hdangling : (relinked.pointers.filter fun p =>
      !relinked.index.contains p.target).length = 1 := by decide +kernel
  have hpointers : relinked.pointers.length = 6 := by decide +kernel
  have htotal := haccounts.total
  rw [haccounts.resolved, haccounts.dangling, List.length_map] at htotal
  refine ⟨built_relinked, haccounts.resolved.trans hresolved, ?_, ?_⟩
  · rw [haccounts.dangling, List.length_map, hdangling]
  · omega

end Graph

end CimStore

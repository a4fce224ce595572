import CimStore.Proofs.Visits

/-!
# Linked reads

Reading a stored model with linking links exactly the references that the model itself can serve:

* `Database.Sound.stored_iff`: what a model stores is what is loaded of it;
* `Service.linkedWithin_linkField`: linked is what the model stores;
* `Service.Reachable.read_links`: in every state that is reached, a reference is linked if and only
  if the model stores an object with the rdf:ID of an admitted class, and its link leads there.
-/

namespace CimStore

namespace Database

variable {k : Catalog} {db : Database}

/-- The model stores an object of the class with the rdf:ID, under the id. -/
def Stored (db : Database) (model id : Int) (rdfid cimType : String) : Prop :=
  ∃ st, db.objects.get? id = some st ∧ st.model = model ∧ st.rdfid = rdfid ∧ st.cimType = cimType

/-- What a model stores is what is loaded of it. -/
theorem Sound.stored_iff (h : db.Sound k) (hk : k.Storable) {model id : Int}
    {rdfid cimType : String} :
    db.Stored model id rdfid cimType ↔
      ∃ o ∈ db.contents k model, o.id = some id ∧ o.rdfid = rdfid ∧ o.cimType = cimType := by
  constructor
  · rintro ⟨st, hst, hmodel, rfl, rfl⟩
    obtain ⟨o, hcls, -, ho⟩ := h.object? hk hst
    exact ⟨_, mem_contents.mpr ⟨id, st, hst, hmodel, ho⟩, rfl, rfl, hk.name_eq hcls⟩
  · rintro ⟨o, ho, hid, rfl, rfl⟩
    obtain ⟨i, st, hst, hmodel, ho⟩ := mem_contents.mp ho
    obtain ⟨_, hst', hid', htype, hrdfid, -⟩ := object?_some hk ho
    rw [hst, Option.some.injEq] at hst'
    rw [hid, Option.some.injEq] at hid'
    subst hst' hid'
    exact ⟨st, hst, hmodel, hrdfid.symm, htype.symm⟩

/-- What is loaded belongs to the model and has no links. -/
theorem Sound.of_mem_contents (h : db.Sound k) (hk : k.Storable) {model : Int} {o : Object}
    (ho : o ∈ db.contents k model) :
    o.model = some model ∧ (∃ id, o.id = some id) ∧ ∀ f ∈ o.fields, f.slot.links = [] := by
  obtain ⟨id, st, hst, rfl, hobj⟩ := mem_contents.mp ho
  obtain ⟨x, -, -, hx⟩ := h.object? hk hst
  rw [hobj, Option.some.injEq] at hx
  subst hx
  refine ⟨rfl, ⟨id, rfl⟩, fun f hf => ?_⟩
  obtain ⟨f, -, rfl⟩ := List.mem_map.mp hf
  exact f.links_reloaded

end Database

namespace Service

variable {k : Catalog} {s : Service}

theorem indexExact_unlinked (h : s.store.Sound k) (hk : k.Storable) (model : Int) :
    (unlinked k s model).IndexExact := by
  refine Graph.IndexExact.insertAll (fun t p => ?_) ?_
  · constructor
    · exact fun h => nomatch h
    · rintro ⟨o, ho, -⟩
      simp at ho
  · simpa using h.db.nodup_contents hk model

/-- The attribute is linked as its model allows: to a target that it reports if and only if the
model stores an object with that rdf:ID of an admitted class, by one link that leads to this object,
and to nothing else. -/
structure LinkedWithin (db : Database) (model : Int) (g : Graph) (f : Field) : Prop where
  linked_iff : f.about.isUsed = true → ∀ t ∈ f.slot.targets, (∃ l ∈ f.slot.links, l.rdfid = t) ↔
    ∃ id c, db.Stored model id t c ∧ f.about.admits c = true
  leads : ∀ l ∈ f.slot.links, ∃ o id, g.resolve? l = some o ∧ o.id = some id ∧
    o.rdfid = l.rdfid ∧ o.cimType = l.cimType ∧ o.model = some model ∧
    db.Stored model id l.rdfid l.cimType ∧ f.about.admits l.cimType = true
  no_other : ∀ l ∈ f.slot.links, f.about.isUsed = true ∧ l.rdfid ∈ f.slot.targets
  once : (f.slot.links.map (·.rdfid)).Nodup

/-- Linking links an attribute of a loaded object as its model allows. -/
theorem linkedWithin_linkField (h : s.store.Sound k) (hk : k.Storable) {model : Int}
    {g₀ g : Graph} (hexact : g₀.IndexExact) (hobjects : g₀.objects = s.store.db.contents k model)
    (hg : g.objects = g₀.objects.map fun o => (o.linkAll g₀.links).1) {o : Object} {f : Field}
    (ho : o ∈ g₀.objects) (hf : f ∈ o.fields) :
    LinkedWithin s.store.db model g (o.linkField g₀.links f).1 := by
  have hlinks := Graph.rdfid_of_get?_links hexact
  have hnone : f.slot.links = [] := (h.db.of_mem_contents hk (hobjects ▸ ho)).2.2 f hf
  have htargets := (o.linkField_spec hlinks hnone).1
  have hmem {l : Link} := Object.mem_links_linkField (o := o) hlinks hnone (l := l)
  have habout := o.about_linkField g₀.links f
  have hstored : ∀ (p : Nat) (a : Object), g₀.objects[p]? = some a → ∃ id, a.id = some id ∧
      a.model = some model ∧ s.store.db.Stored model id a.rdfid a.cimType := by
    intro p a ha
    have hmem : a ∈ s.store.db.contents k model := hobjects ▸ List.mem_of_getElem? ha
    obtain ⟨hmodel, ⟨id, hid⟩, -⟩ := h.db.of_mem_contents hk hmem
    exact ⟨id, hid, hmodel, (h.db.stored_iff hk).mpr ⟨a, hmem, hid, rfl, rfl⟩⟩
  refine ⟨?_, ?_, ?_, o.nodup_links_linkField hlinks hnone⟩
  · intro hused t ht
    rw [habout] at hused ⊢
    rw [htargets] at ht
    constructor
    · rintro ⟨l, hl, rfl⟩
      obtain ⟨p, a, ha, hrdfid, -, hadmits⟩ := (Graph.choose_links hexact).mp (hmem.mp hl).2.2
      obtain ⟨id, -, -, hst⟩ := hstored p a ha
      exact ⟨id, a.cimType, hrdfid ▸ hst, hadmits⟩
    · rintro ⟨id, c, hst, hadmits⟩
      obtain ⟨a, ha, -, hrdfid, rfl⟩ := (h.db.stored_iff hk).mp hst
      obtain ⟨p, hp⟩ := List.mem_iff_getElem?.mp (hobjects ▸ ha)
      have hchosen := (Graph.choose_links hexact).mpr ⟨p, a, hp, hrdfid, rfl, hadmits⟩
      exact ⟨⟨p, t, a.cimType⟩, hmem.mpr ⟨hused, ht, hchosen⟩, rfl⟩
  · intro l hl
    rw [habout]
    obtain ⟨p, a, ha, hrdfid, hl, hadmits⟩ := (Graph.choose_links hexact).mp (hmem.mp hl).2.2
    obtain ⟨id, hid, hmodel, hst⟩ := hstored p a ha
    have hposition : l.position = p := by rw [hl]
    have htype : l.cimType = a.cimType := by rw [hl]
    refine ⟨(a.linkAll g₀.links).1, id, ?_, hid, hrdfid, htype.symm, hmodel, ?_, htype ▸ hadmits⟩
    · show g.objects[l.position]? = _
      rw [hg, hposition, List.getElem?_map, ha]
      rfl
    · rw [htype, ← hrdfid]
      exact hst
  · intro l hl
    rw [habout, htargets]
    exact ⟨(hmem.mp hl).1, (hmem.mp hl).2.1⟩

/-- **A linked read links what the model can serve, and nothing else.** In every state that a store
is brought to, whatever the order in which the objects are loaded and whatever other models store,
every attribute of every object of a stored model is linked as `LinkedWithin` says. The targets that
the attributes report are those of the unlinked read. Where the labels of the classes are distinct,
the same comes of the unlinked graph if each attribute is looked up by its label. -/
theorem Reachable.read_links (hk : k.Storable) (hs : Reachable k s) {model : Int}
    (hm : s.store.modelExists model = true) :
    ∃ g₀ s₀ g s', read model false s = (.ok g₀, s₀) ∧ read model true s = (.ok g, s') ∧
      (g.objects.map fun o => (o.id, o.rdfid, o.fields.map fun f => f.slot.targets)) =
        (g₀.objects.map fun o => (o.id, o.rdfid, o.fields.map fun f => f.slot.targets)) ∧
      (∀ o ∈ g.objects, ∀ f ∈ o.fields, LinkedWithin s.store.db model g f) ∧
      ((∀ o ∈ g₀.objects, o.cls.Labelled) →
        ∃ g₁ report, g₀.visitAll = .ok (g₁, report) ∧ g = { g₁ with report }) := by
  have h := hs.sound hk
  obtain ⟨s₀, hread₀, -⟩ := read_unlinked h hk hm
  obtain ⟨s', hread, -⟩ := read_linked h hk hm
  refine ⟨_, s₀, _, s', hread₀, hread, ?_⟩
  have hexact := indexExact_unlinked h hk model
  have hobjects := objects_unlinked k s model
  generalize unlinked k s model = g₀ at *
  have hlinks := Graph.rdfid_of_get?_links hexact
  have hlinked : g₀.linkAll.1.objects = g₀.objects.map fun o => (o.linkAll g₀.links).1 :=
    linkObjects_fst ..
  have hfields : ∀ o : Object, (o.linkAll g₀.links).1.fields =
      o.fields.map fun f => (o.linkField g₀.links f).1 := fun o =>
    o.linkFields_fst g₀.links o.fields
  refine ⟨?_, ?_, fun hlabels => ⟨_, _, Graph.visitAll_eq hlabels, rfl⟩⟩
  · show g₀.linkAll.1.objects.map _ = _
    rw [hlinked, List.map_map]
    refine List.map_congr_left fun o ho => ?_
    show (o.id, o.rdfid, (o.linkAll g₀.links).1.fields.map fun f => f.slot.targets) = _
    rw [hfields, List.map_map]
    congr 2
    refine List.map_congr_left fun f hf => ?_
    exact (o.linkField_spec hlinks ((h.db.of_mem_contents hk (hobjects ▸ ho)).2.2 f hf)).1
  · intro o' ho' f' hf'
    have ho' : o' ∈ g₀.linkAll.1.objects := ho'
    rw [hlinked] at ho'
    obtain ⟨o, ho, rfl⟩ := List.mem_map.mp ho'
    rw [hfields] at hf'
    obtain ⟨f, hf, rfl⟩ := List.mem_map.mp hf'
    refine linkedWithin_linkField h hk hexact hobjects ?_ ho hf
    exact hlinked

/-- In the grid the line is linked to itself, and the island to a node that is loaded after it. -/
theorem Reachable.read_links_smallGrid : SmallGrid.service.store.modelExists 1 = true ∧
    ∃ g s', read 1 true SmallGrid.service = (.ok g, s') ∧
      ∀ o ∈ g.objects, ∀ f ∈ o.fields, LinkedWithin SmallGrid.service.store.db 1 g f := by
  have hm := SmallGrid.modelExists_service
  obtain ⟨-, -, g, s', -, hread, -, hlinked, -⟩ :=
    Reachable.read_links Catalog.standard_storable SmallGrid.reachable_service hm
  exact ⟨hm, g, s', hread, hlinked⟩

end Service

end CimStore

import CimStore.Proofs.Accounting

/-!
# Linking in any load order

Objects with different rdf:IDs can be loaded in any order: positions in the graph and in the index
differ, but not what is linked to what.

* `Graph.get?_loaded_perm`: the same object is found under an rdf:ID;
* `Graph.map_choose`: what an attribute accepts a link to only depends on which object is found;
* `Graph.resolve?_of_mem_links`: a link leads to the object of its own graph;
* `Graph.linkAll_perm`: the links and the reports of two load orders are alike.
-/

namespace CimStore

/-- The objects that an attribute is linked to, by rdf:ID and class. -/
def Object.linkedTo (o : Object) (name : String) : Except Error (List (String × String)) := do
  return (← o.links name).map fun l => (l.rdfid, l.cimType)

namespace Graph

/-- The graph of a model into which the objects were loaded in order. -/
def loaded (model : Option Int) (os : List Object) : Graph :=
  ({ model } : Graph).insertAll os

variable {os ps : List Object} {a b : Option Int}

@[simp]
theorem objects_loaded (model : Option Int) (os : List Object) : (loaded model os).objects = os :=
  (objects_insertAll ..).trans (List.nil_append os)

theorem indexExact_loaded (h : (os.map (·.rdfid)).Nodup) : (loaded a os).IndexExact := by
  refine IndexExact.insertAll (fun t p => ?_) (by simpa using h)
  constructor
  · exact fun hp => nomatch hp
  · rintro ⟨o, ho, -⟩
    exact absurd ho (by simp)

/-- With an exact index, an object is found under its rdf:ID. -/
theorem IndexExact.get?_eq_some_iff {g : Graph} (h : g.IndexExact) {t : String} {o : Object} :
    g.get? t = some o ↔ o ∈ g.objects ∧ o.rdfid = t := by
  rw [get?, Option.bind_eq_some_iff]
  constructor
  · rintro ⟨p, hp, ho⟩
    obtain ⟨x, hx, hrdfid⟩ := (h t p).mp hp
    obtain rfl : x = o := Option.some.inj (hx.symm.trans ho)
    exact ⟨List.mem_of_getElem? hx, hrdfid⟩
  · rintro ⟨ho, hrdfid⟩
    obtain ⟨p, hp⟩ := List.mem_iff_getElem?.mp ho
    exact ⟨p, (h t p).mpr ⟨o, hp, hrdfid⟩, hp⟩

/-- **In any load order the same object is found.** -/
theorem get?_loaded_perm (hperm : os.Perm ps) (hnodup : (os.map (·.rdfid)).Nodup) (t : String) :
    (loaded a os).get? t = (loaded b ps).get? t := by
  have hnodup' : (ps.map (·.rdfid)).Nodup := (hperm.map _).nodup_iff.mp hnodup
  apply Option.ext
  intro o
  rw [(indexExact_loaded hnodup).get?_eq_some_iff, (indexExact_loaded hnodup').get?_eq_some_iff,
    objects_loaded, objects_loaded, hperm.mem_iff]

/-- Linking changes no object's place. -/
theorem object?_linkAll (g : Graph) (p : Nat) :
    g.linkAll.1.object? p = (g.object? p).map fun o => (o.linkAll g.links).1 := by
  show (linkObjects g.links g.objects).1[p]? = _
  rw [linkObjects_fst, List.getElem?_map]
  rfl

theorem get?_linkAll (g : Graph) (t : String) :
    g.linkAll.1.get? t = (g.get? t).map fun o => (o.linkAll g.links).1 := by
  show (g.index.get? t).bind g.linkAll.1.object? = ((g.index.get? t).bind g.object?).map _
  rw [funext g.object?_linkAll, Option.map_bind]
  rfl

/-- The table of links gives the class of the object that is found. -/
theorem map_choose (g : Graph) (d : Descriptor) (t : String) :
    (d.choose g.links t).map (fun l => (l.rdfid, l.cimType)) =
      ((g.get? t).filter fun o => d.admits o.cimType).map fun o => (t, o.cimType) := by
  have htype := g.map_cimType_link? t
  unfold Descriptor.choose
  rw [get?_links_eq]
  cases hl : g.link? t with
  | none =>
    rw [hl] at htype
    have hnone : g.get? t = none := by simpa using htype.symm
    rw [hnone]
    rfl
  | some l =>
    rw [hl] at htype
    obtain ⟨o, ho, hcls⟩ := Option.map_eq_some_iff.mp htype.symm
    have hcls : o.cimType = l.cimType := hcls
    rw [ho]
    by_cases hadmits : d.admits l.cimType
    · simp [Option.filter, hcls, hadmits, rdfid_of_link? hl]
    · simp [Option.filter, hcls, hadmits]

/-- **A link leads to the object with its rdf:ID and class**, in the graph in which it was made. -/
theorem resolve?_of_mem_links {g : Graph} (h : g.IndexExact) {o : Object}
    (hnone : ∀ f ∈ o.fields, f.slot.links = []) {f : Field} (hf : f ∈ (o.linkAll g.links).1.fields)
    {l : Link} (hl : l ∈ f.slot.links) :
    ∃ x, g.linkAll.1.resolve? l = some x ∧ g.linkAll.1.get? l.rdfid = some x ∧
      x.rdfid = l.rdfid ∧ x.cimType = l.cimType := by
  have hfields : (o.linkAll g.links).1.fields = o.fields.map fun f => (o.linkField g.links f).1 :=
    o.linkFields_fst g.links o.fields
  rw [hfields] at hf
  obtain ⟨f₀, hf₀, rfl⟩ := List.mem_map.mp hf
  obtain ⟨-, -, hchosen⟩ :=
    (Object.mem_links_linkField (rdfid_of_get?_links h) (hnone f₀ hf₀)).mp hl
  obtain ⟨p, x, hx, hrdfid, hlink, -⟩ := (choose_links h).mp hchosen
  have hposition : l.position = p := by rw [hlink]
  have hclass : l.cimType = x.cimType := by rw [hlink]
  refine ⟨(x.linkAll g.links).1, ?_, ?_, hrdfid, hclass.symm⟩
  · show (linkObjects g.links g.objects).1[l.position]? = _
    rw [linkObjects_fst, List.getElem?_map, hposition, hx]
    rfl
  · have hfound : g.get? l.rdfid = some x :=
      h.get?_eq_some_iff.mpr ⟨List.mem_of_getElem? hx, hrdfid⟩
    rw [get?_linkAll, hfound]
    rfl

end Graph

/-! ## Links by name -/

namespace Object

variable {o x y : Object}

/-- What the attributes are linked to, in the order of the class. -/
def linked (o : Object) : List (Descriptor × List (String × String)) :=
  o.fields.map fun f => (f.about, f.slot.links.map fun l => (l.rdfid, l.cimType))

theorem linkedTo_eq (o : Object) (name : String) :
    o.linkedTo name = match o.linked.find? (·.1.isNamed name) with
      | some a => .ok a.2
      | none => .error (.unknownAttribute o.cimType name) := by
  have hfind : o.linked.find? (·.1.isNamed name) = (o.field? name).map fun f =>
      (f.about, f.slot.links.map fun l => (l.rdfid, l.cimType)) := List.find?_map
  rw [hfind]
  unfold linkedTo links field
  cases o.field? name with
  | none => rfl
  | some f => rfl

/-- **What is linked by name depends on the class and the links only.** -/
theorem linkedTo_congr (hcls : x.cls = y.cls) (h : x.linked = y.linked) (name : String) :
    x.linkedTo name = y.linkedTo name := by
  rw [linkedTo_eq, linkedTo_eq, h, cimType, cimType, hcls]

/-- The links by name are links of a field. -/
theorem mem_links_of_links {name : String} {ls : List Link} (h : o.links name = .ok ls) {l : Link}
    (hl : l ∈ ls) : ∃ f ∈ o.fields, l ∈ f.slot.links := by
  unfold links field at h
  cases hf : o.field? name with
  | none => simp [hf, bind, Except.bind] at h
  | some f =>
    have hslot : f.slot.links = ls := by
      simpa [hf, bind, Except.bind, pure, Except.pure] using h
    exact ⟨f, List.mem_of_find?_eq_some hf, hslot ▸ hl⟩

/-- What an object is linked to only depends on which objects are found. -/
theorem linked_linkAll_congr {g g' : Graph} (h : g.IndexExact) (h' : g'.IndexExact)
    (hget : ∀ t, g.get? t = g'.get? t) (hnone : ∀ f ∈ o.fields, f.slot.links = []) :
    (o.linkAll g.links).1.linked = (o.linkAll g'.links).1.linked := by
  show (o.linkFields g.links o.fields).1.map _ = (o.linkFields g'.links o.fields).1.map _
  rw [linkFields_fst, linkFields_fst, List.map_map, List.map_map]
  apply List.map_congr_left
  intro f hf
  simp only [Function.comp_apply]
  rw [about_linkField, about_linkField,
    (linkField_spec (Graph.rdfid_of_get?_links h) (hnone f hf)).2,
    (linkField_spec (Graph.rdfid_of_get?_links h') (hnone f hf)).2]
  by_cases hused : f.about.isUsed
  · rw [if_pos hused, if_pos hused, List.map_filterMap, List.map_filterMap]
    congr 1
    refine List.filterMap_congr fun t _ => ?_
    rw [Graph.map_choose, Graph.map_choose, hget]
  · rw [if_neg hused, if_neg hused]

end Object

/-! ## Two load orders -/

/-- Every link of the object leads to the object of the graph with its rdf:ID and class. -/
def Graph.Leads (g : Graph) (o : Object) : Prop :=
  ∀ name ls, o.links name = .ok ls → ∀ l ∈ ls, ∃ x, g.resolve? l = some x ∧
    g.get? l.rdfid = some x ∧ x.rdfid = l.rdfid ∧ x.cimType = l.cimType

/-- The same is found in two visits, in any order. -/
structure LinkReport.Alike (r r' : LinkReport) : Prop where
  objects : r.objects = r'.objects
  references : r.references = r'.references
  resolved : r.resolved = r'.resolved
  dangling : r.dangling.Perm r'.dangling
  failures : r.failures.Perm r'.failures

namespace Graph

variable {os ps : List Object} {a b : Option Int}

/-- Graphs of the same objects in which the same objects are found have reports alike. -/
theorem alike_linkAll {g g' : Graph} (hperm : g.objects.Perm g'.objects)
    (hget : ∀ t, g.get? t = g'.get? t) : g.linkAll.2.Alike g'.linkAll.2 := by
  have hpointers : g.pointers.Perm g'.pointers := hperm.flatMap_right _
  have hdiagnostic : Pointer.diagnostic? g.links = Pointer.diagnostic? g'.links := by
    funext p
    rw [diagnostic?_eq, diagnostic?_eq, hget]
  rw [linkAll_snd, linkAll_snd]
  refine ⟨hperm.length_eq, (hperm.flatMap_right _).length_eq, ?_, ?_, ?_⟩
  · show List.countP _ _ = List.countP _ _
    rw [hdiagnostic]
    exact hpointers.countP_eq _
  · show (List.filterMap _ (List.filterMap _ _)).Perm (List.filterMap _ (List.filterMap _ _))
    rw [hdiagnostic]
    exact (hpointers.filterMap _).filterMap _
  · show (List.filterMap _ (List.filterMap _ _)).Perm (List.filterMap _ (List.filterMap _ _))
    rw [hdiagnostic]
    exact (hpointers.filterMap _).filterMap _

theorem leads_linkAll {g : Graph} (h : g.IndexExact) {o : Object}
    (hnone : ∀ f ∈ o.fields, f.slot.links = []) : g.linkAll.1.Leads (o.linkAll g.links).1 := by
  intro name ls hls l hl
  obtain ⟨f, hf, hl⟩ := Object.mem_links_of_links hls hl
  exact resolve?_of_mem_links h hnone hf hl

/-- **Linking does not depend on the load order.** Unlinked objects with different rdf:IDs are
loaded in two orders and linked. Under each rdf:ID the same object is found, every attribute of it
is linked to the same rdf:IDs and classes, each link leads to the object with its rdf:ID in its own
graph, and the reports are alike. Where the labels of the classes are distinct, looking each
attribute up by its label gives these graphs and reports. -/
theorem linkAll_perm (hperm : os.Perm ps) (hnodup : (os.map (·.rdfid)).Nodup)
    (hnone : ∀ o ∈ os, ∀ f ∈ o.fields, f.slot.links = []) (a b : Option Int) :
    (∀ o ∈ os, ∃ x y, (loaded a os).linkAll.1.get? o.rdfid = some x ∧
      (loaded b ps).linkAll.1.get? o.rdfid = some y ∧ x.cls = o.cls ∧ y.cls = o.cls ∧
      (∀ name, x.linkedTo name = y.linkedTo name) ∧
      (loaded a os).linkAll.1.Leads x ∧ (loaded b ps).linkAll.1.Leads y) ∧
    (∀ t, t ∉ os.map (·.rdfid) → (loaded a os).linkAll.1.get? t = none ∧
      (loaded b ps).linkAll.1.get? t = none) ∧
    (loaded a os).linkAll.2.Alike (loaded b ps).linkAll.2 ∧
    ((∀ o ∈ os, o.cls.Labelled) → (loaded a os).visitAll = .ok (loaded a os).linkAll ∧
      (loaded b ps).visitAll = .ok (loaded b ps).linkAll) := by
  have hexact : (loaded a os).IndexExact := indexExact_loaded hnodup
  have hexact' : (loaded b ps).IndexExact :=
    indexExact_loaded ((hperm.map _).nodup_iff.mp hnodup)
  have hget := fun t => get?_loaded_perm (a := a) (b := b) hperm hnodup t
  refine ⟨?_, ?_, alike_linkAll (by simpa using hperm) hget, fun hlabels =>
    ⟨visitAll_eq (by simpa using hlabels), visitAll_eq ?_⟩⟩
  · intro o ho
    have hfound : (loaded a os).get? o.rdfid = some o :=
      hexact.get?_eq_some_iff.mpr ⟨by simpa using ho, rfl⟩
    have hfound' : (loaded b ps).get? o.rdfid = some o := (hget o.rdfid).symm.trans hfound
    refine ⟨(o.linkAll (loaded a os).links).1, (o.linkAll (loaded b ps).links).1, ?_, ?_, rfl, rfl,
      ?_, leads_linkAll hexact (hnone o ho), leads_linkAll hexact' (hnone o ho)⟩
    · rw [get?_linkAll, hfound]
      rfl
    · rw [get?_linkAll, hfound']
      rfl
    · exact Object.linkedTo_congr rfl (Object.linked_linkAll_congr hexact hexact' hget (hnone o ho))
  · intro t ht
    have hmissing : (loaded a os).get? t = none := by
      cases hfound : (loaded a os).get? t with
      | none => rfl
      | some o =>
        obtain ⟨ho, hrdfid⟩ := hexact.get?_eq_some_iff.mp hfound
        rw [objects_loaded] at ho
        exact absurd (List.mem_map.mpr ⟨o, ho, hrdfid⟩) ht
    have hmissing' : (loaded b ps).get? t = none := (hget t).symm.trans hmissing
    rw [get?_linkAll, get?_linkAll, hmissing, hmissing']
    exact ⟨rfl, rfl⟩
  · rw [objects_loaded]
    exact fun o ho => hlabels o (hperm.mem_iff.mpr ho)

/-- The objects of the small grid, of which the island points forward and the line at itself. -/
def smallGrid : List Object := [SmallGrid.island, SmallGrid.line, SmallGrid.node "_n1"]

/-- In the reverse order the island points backward, and is linked to the same node. -/
theorem linkAll_perm_smallGrid : smallGrid.Perm smallGrid.reverse ∧
    (smallGrid.map (·.rdfid)).Nodup ∧ (∀ o ∈ smallGrid, ∀ f ∈ o.fields, f.slot.links = []) ∧
    ∃ x y, (loaded none smallGrid).linkAll.1.get? "_i" = some x ∧
      (loaded none smallGrid.reverse).linkAll.1.get? "_i" = some y ∧
      x.linkedTo "TopologicalNodes" = y.linkedTo "TopologicalNodes" := by
  have hperm : smallGrid.Perm smallGrid.reverse := (List.reverse_perm _).symm
  have hnodup : (smallGrid.map (·.rdfid)).Nodup := by decide +kernel
  have hnone : ∀ o ∈ smallGrid, ∀ f ∈ o.fields, f.slot.links = [] := by decide +kernel
  obtain ⟨hfound, -, -, -⟩ := linkAll_perm hperm hnodup hnone none none
  obtain ⟨x, y, hx, hy, -, -, hlinked, -⟩ := hfound SmallGrid.island (List.mem_cons_self ..)
  exact ⟨hperm, hnodup, hnone, x, y, hx, hy, hlinked "TopologicalNodes"⟩

end Graph

end CimStore

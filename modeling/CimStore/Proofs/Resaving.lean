import CimStore.Proofs.Reexport
import CimStore.Proofs.Replacing
import CimStore.Proofs.Retrying
import CimStore.Proofs.Untouched

/-!
# Saving what was read

The objects of a model are read and saved as they are, in any order. Nothing changes, as long as the
targets of the references are in the form in which they are kept:

* `Field.reloaded_reloaded`: a value that was loaded is stored and loaded again as it is, and
  `Object.reloaded_linkField`: links are not stored;
* `Service.read_restores`: so whatever is read, linked or not, would be loaded as it is stored now
  (`Object.Restores`);
* `Database.StoresAll.object?_restored`: saving such objects leaves all objects as they are;
* `Service.Reachable.save_read`: the save succeeds, gives no new ids, and every model reads as
  before.
-/

namespace CimStore

/-! ## Values that were loaded -/

namespace Slot

/-- Only the targets of a reference are stored. -/
theorem reloaded_congr {s t : Slot} (hsort : s.sort = t.sort) (htargets : s.targets = t.targets)
    (hne : t.targets ≠ []) : s.reloaded = t.reloaded := by
  cases t with
  | string | float | integer | boolean | phaseCode => exact absurd rfl hne
  | reference r =>
    cases s with
    | reference r' =>
      have htarget : r'.target? = r.target? := by
        cases r' <;> cases r <;> simp_all [targets, Reference.target?]
      simp only [reloaded, htarget]
    | string | float | integer | boolean | phaseCode | referenceSet => cases hsort
  | referenceSet r =>
    cases s with
    | referenceSet r' =>
      have hids : r'.ids = r.ids := htargets
      simp only [reloaded, hids]
    | string | float | integer | boolean | phaseCode | reference => cases hsort

/-- No empty target is loaded. -/
theorem isProper_reloaded (s : Slot) : s.reloaded.IsProper := by
  have hempty : ∀ sort : AttributeSort, sort.emptySlot.IsProper := fun sort t ht => by
    rw [targets_emptySlot] at ht
    exact absurd ht List.not_mem_nil
  cases s with
  | string | float | integer | boolean | phaseCode => exact fun t ht => nomatch ht
  | reference r =>
    cases hr : r.target? with
    | none =>
      simp only [reloaded, hr]
      exact hempty .reference
    | some target =>
      simp only [reloaded, hr]
      have hwrite : (reference .empty).write? target = some _ := rfl
      exact (hempty .reference).write? hwrite
  | referenceSet r =>
    have hadd : ∀ (ts : List String) (r : ReferenceSet), (referenceSet r).IsProper →
        (referenceSet (ts.foldl ReferenceSet.addId r)).IsProper := by
      intro ts
      induction ts with
      | nil => exact fun _ h => h
      | cons t ts ih =>
        intro r h
        have hwrite : (referenceSet r).write? t = some _ := rfl
        exact ih _ (h.write? hwrite)
    exact hadd r.ids .empty (hempty .referenceSet)

/-- What is loaded has no links, and no zero with a sign. -/
theorem bare_reloaded (s : Slot) : s.reloaded.bare = s.reloaded := by
  have hlinks := s.links_reloaded
  cases s with
  | string | integer | boolean | phaseCode => rfl
  | float v => exact bare_bare (.float v)
  | reference r =>
    cases hr : r.target? with
    | none => simp only [reloaded, hr]; rfl
    | some target =>
      simp only [reloaded, hr] at hlinks ⊢
      cases hof : Reference.ofId target with
      | linked l => simp [hof, links, Reference.link?] at hlinks
      | empty | unlinked => simp only [Option.map_some, Option.getD_some, hof]; rfl
  | referenceSet r =>
    simp only [reloaded] at hlinks ⊢
    generalize r.ids.foldl ReferenceSet.addId .empty = r' at hlinks
    have hmembers : r'.members.mapValues (fun _ _ => none) = r'.members := by
      refine SortedMap.ext_get? fun t => ?_
      rw [SortedMap.get?_mapValues]
      cases hget : r'.members.get? t with
      | none => rfl
      | some l =>
        have hnone := List.filterMap_eq_nil_iff.mp hlinks l
          (List.mem_map_of_mem (f := (·.2)) (SortedMap.get?_eq_some_iff.mp hget))
        rw [Option.map_some, ← hnone]
        rfl
    simp only [bare, hmembers]

/-- **A value that was loaded is loaded as it is**, again and again. -/
theorem reloaded_reloaded {s : Slot} (h : ∀ t ∈ s.reloaded.targets, normalizeId t = t) :
    s.reloaded.reloaded = s.reloaded :=
  (reloaded_eq_bare fun t ht => ⟨s.isProper_reloaded t ht, h t ht⟩).trans s.bare_reloaded

end Slot

theorem Field.reloaded_reloaded {f : Field}
    (h : ∀ t ∈ f.reloaded.slot.targets, normalizeId t = t) : f.reloaded.reloaded = f.reloaded := by
  refine ext_slot (about_reloaded _) ?_
  by_cases hused : f.about.isUsed
  · rw [slot_reloaded hused] at h
    rw [slot_reloaded (f.about_reloaded.symm ▸ hused), slot_reloaded hused,
      Slot.reloaded_reloaded h]
  · -- An attribute that is not used is loaded empty.
    have hunused : f.reloaded.about.isUsed = false := by simpa [f.about_reloaded] using hused
    rw [reloaded, hunused]
    show (Field.empty f.reloaded.about).slot = f.reloaded.slot
    rw [about_reloaded, reloaded, if_neg hused]

/-- **Links are not stored.** -/
theorem Object.reloaded_linkField {links : SortedMap String Link} {o : Object} {f : Field}
    (hlinks : ∀ t l, links.get? t = some l → l.rdfid = t) (hnone : f.slot.links = []) :
    (o.linkField links f).1.reloaded = f.reloaded := by
  have habout := o.about_linkField links f
  by_cases hvisit : f.about.isUsed = true ∧ f.slot.targets ≠ []
  · obtain ⟨hused, hne⟩ := hvisit
    refine Field.ext_slot ?_ ?_
    · rw [Field.about_reloaded, Field.about_reloaded, habout]
    · rw [Field.slot_reloaded (habout.symm ▸ hused), Field.slot_reloaded hused]
      refine Slot.reloaded_congr ?_ (o.linkField_spec hlinks hnone).1 hne
      rw [Field.sort_slot, Field.sort_slot, habout]
  · have hpassed : (f.about.isUsed && !f.slot.targets.isEmpty) = false := by
      by_cases hused : f.about.isUsed <;> simp_all
    rw [linkField, hpassed]
    rfl

/-! ## Objects that were read -/

/-- `o` saved under its id into its model is loaded as `x`. -/
structure Object.Restores (o x : Object) : Prop extends o.Reloads x where
  id : x.id = o.id
  model : x.model = o.model

theorem Object.Restores.reloaded_eq {o x : Object} (h : o.Restores x) {id model : Int}
    (hid : o.id = some id) (hmodel : o.model = some model) : o.reloaded id o.rdfid model = x :=
  ext_fields h.cls.symm (hid.symm.trans h.id.symm) h.rdfid.symm (hmodel.symm.trans h.model.symm)
    h.fields.symm

/-- The targets of all references are in the form in which they are kept. -/
def Graph.IsNormal (g : Graph) : Prop :=
  ∀ o ∈ g.objects, ∀ f ∈ o.fields, ∀ t ∈ f.slot.targets, normalizeId t = t

instance (g : Graph) : Decidable g.IsNormal :=
  inferInstanceAs (Decidable (∀ o ∈ g.objects, ∀ f ∈ o.fields, ∀ t ∈ f.slot.targets,
    normalizeId t = t))

namespace Database

variable {k : Catalog} {db db' : Database} {model : Int} {os os' : List Object}

/-- Every object of a model restores itself. -/
theorem Sound.restores_self (h : db.Sound k) (hk : k.Storable) {x : Object}
    (hx : x ∈ db.contents k model)
    (htargets : ∀ f ∈ x.fields, ∀ t ∈ f.slot.targets, normalizeId t = t) : x.Restores x := by
  obtain ⟨id, st, hst, -, hobj⟩ := mem_contents.mp hx
  obtain ⟨o, -, -, ho⟩ := h.object? hk hst
  rw [hobj, Option.some.injEq] at ho
  subst ho
  refine ⟨⟨rfl, rfl, ?_⟩, rfl, rfl⟩
  show o.fields.map Field.reloaded = (o.fields.map Field.reloaded).map Field.reloaded
  rw [List.map_map]
  refine List.map_congr_left fun f hf => (Field.reloaded_reloaded ?_).symm
  exact htargets f.reloaded (List.mem_map_of_mem hf)

/-- The objects of a model mirror what is stored of it. -/
theorem Sound.mirrors_contents (h : db.Sound k) (hk : k.Storable) (model : Int) :
    db.Mirrors (some model) (db.contents k model) where
  stored x hx id hid := by
    obtain ⟨i, st, hst, hmodel, hobj⟩ := mem_contents.mp hx
    obtain ⟨st', hst', hi, htype, hrdfid, -⟩ := object?_some hk hobj
    obtain rfl : i = id := Option.some.inj (hi.symm.trans hid)
    rw [hst, Option.some.injEq] at hst'
    exact ⟨model, st, rfl, hst, hmodel, hst' ▸ hrdfid.symm, hst' ▸ htype.symm⟩
  listed n hn id st hst hmodel := by
    obtain rfl := Option.some.inj hn
    obtain ⟨o, -, -, hobj⟩ := h.object? hk hst
    exact ⟨_, mem_contents.mpr ⟨id, st, hst, hmodel, hobj⟩, rfl⟩
  nodup := by
    refine List.pairwise_filterMap.mpr ((h.pairwise_contents hk model).imp_of_mem ?_)
    rintro a b ha hb hab i hi _ hj rfl
    obtain ⟨i', _, -, -, hai⟩ := mem_contents.mp ha
    obtain ⟨j', _, -, -, hbj⟩ := mem_contents.mp hb
    obtain ⟨-, -, hai', -⟩ := object?_some hk hai
    obtain ⟨-, -, hbj', -⟩ := object?_some hk hbj
    obtain rfl := Option.some.inj (hai'.symm.trans hi)
    obtain rfl := Option.some.inj (hbj'.symm.trans hj)
    rw [hai, Option.some.injEq] at hbj
    exact Object.not_precedes_self a (hbj ▸ hab)

theorem Sound.known_of_mem_contents (h : db.Sound k) (hk : k.Storable) {x : Object}
    (hx : x ∈ db.contents k model) : k.get? x.cimType = some x.cls := by
  obtain ⟨id, st, hst, -, hobj⟩ := mem_contents.mp hx
  obtain ⟨o, hcls, -, ho⟩ := h.object? hk hst
  obtain ⟨st', hst', -, htype, -⟩ := object?_some hk hobj
  rw [hobj, Option.some.injEq] at ho
  rw [hst, Option.some.injEq] at hst'
  rw [htype, ← hst', hcls, ho]
  rfl

@[simp]
theorem contents_nameModel (k : Catalog) (db : Database) (n model : Int) (name : Option String) :
    (db.nameModel n name).contents k model = db.contents k model := rfl

/-- Objects that have been stored can be taken again. -/
theorem Mirrors.takes_stored (h : db.Mirrors (some model) os) (hs : db.Sound k)
    (howner : db.models.contains model = true) (hids : ∀ o ∈ os, o.id ≠ none) :
    db.Takes model os := by
  have hsome : os.filter (·.id.isSome) = os :=
    List.filter_eq_self.mpr fun o ho => Option.isSome_iff_ne_none.mpr (hids o ho)
  have hdistinct := h.nodup_rdfids hs
  rw [hsome] at hdistinct
  have hnone : os.countP (·.id = none) = 0 :=
    List.countP_eq_zero.mpr fun o ho => by simpa using hids o ho
  have hall : db.Mirrors (some model) (os ++ []) := by rwa [List.append_nil]
  refine hall.takes hs howner (fun hpos => ?_) hdistinct fun _ _ _ p hp =>
    absurd hp List.not_mem_nil
  exact absurd hpos (by omega)

/-- **Saving what restores the stored objects changes none.** -/
theorem StoresAll.object?_restored (h : StoresAll k model db os os' db') (hk : k.Storable)
    (hnodup : (os'.map (·.id)).Nodup) (hos : ∀ o ∈ os, ∃ x ∈ db.contents k model, o.Restores x)
    (id : Int) : db'.object? k id = db.object? k id := by
  have hstored : ∀ o ∈ os, ∃ i x, o.id = some i ∧ o.model = some model ∧ o.Restores x ∧
      db.object? k i = some x := by
    intro o ho
    obtain ⟨x, hx, hrestores⟩ := hos o ho
    obtain ⟨i, hobj, hi, hm⟩ := (mem_contents_iff_object? hk).mp hx
    exact ⟨i, x, hrestores.id.symm.trans hi, hrestores.model.symm.trans hm, hrestores, hobj⟩
  obtain rfl : os' = os := h.eq_self fun o ho hnone => by
    obtain ⟨i, -, hi, -⟩ := hstored o ho
    exact nomatch hnone.symm.trans hi
  by_cases hmem : ∃ o ∈ os', o.id = some id
  · obtain ⟨o, ho, hid⟩ := hmem
    obtain ⟨i, x, hi, hm, hrestores, hobj⟩ := hstored o ho
    obtain rfl : id = i := Option.some.inj (hid.symm.trans hi)
    have hsame : ∀ st, db.objects.get? id = some st → st.cimType = o.cimType := by
      intro st hst
      obtain ⟨st', hst', -, htype, -⟩ := object?_some hk hobj
      rw [hst, Option.some.injEq] at hst'
      rw [hst', ← htype, Object.cimType, hrestores.cls, Object.cimType]
    rw [h.each.object?_same hk hnodup ho hid hm hsame, hrestores.reloaded_eq hid hm, hobj]
  · exact object?_congr (h.get?_of_not_mem fun o ho hid => hmem ⟨o, ho, hid⟩)

end Database

namespace Service

variable {k : Catalog} {s : Service} {model : Int}

/-- **What is read restores what is stored**, linked or not. -/
theorem read_restores (h : s.store.Sound k) (hk : k.Storable)
    (hm : s.store.modelExists model = true) (linked : Bool) :
    ∃ g s₁, read model linked s = (.ok g, s₁) ∧ s₁.store = s.store ∧
      (g.IsNormal →
        List.Forall₂ (fun x o => o.Restores x) (s.store.db.contents k model) g.objects) := by
  have hobjects := objects_unlinked k s model
  cases linked with
  | false =>
    obtain ⟨s₁, hread, hstore⟩ := read_unlinked h hk hm
    refine ⟨_, s₁, hread, hstore, fun hnormal => ?_⟩
    rw [hobjects, List.forall₂_same]
    exact fun x hx => h.db.restores_self hk hx (hnormal x (hobjects ▸ hx))
  | true =>
    obtain ⟨s₁, hread, hstore⟩ := read_linked h hk hm
    refine ⟨_, s₁, hread, hstore, fun hnormal => ?_⟩
    have hlinks := Graph.rdfid_of_get?_links (indexExact_unlinked h hk model)
    generalize unlinked k s model = g at *
    have hlinked : g.linkAll.1.objects = g.objects.map fun o => (o.linkAll g.links).1 :=
      linkObjects_fst ..
    have hnormal : ∀ o ∈ g.linkAll.1.objects, ∀ f ∈ o.fields, ∀ t ∈ f.slot.targets,
        normalizeId t = t := hnormal
    show List.Forall₂ _ _ g.linkAll.1.objects
    rw [hlinked] at hnormal ⊢
    rw [hobjects, List.forall₂_map_right_iff, List.forall₂_same]
    intro x hx
    have hfields : (x.linkAll g.links).1.fields =
        x.fields.map fun f => (x.linkField g.links f).1 := x.linkFields_fst g.links x.fields
    have hnone := (h.db.of_mem_contents hk hx).2.2
    have hself := h.db.restores_self hk hx fun f hf t ht => by
      refine hnormal _ (List.mem_map_of_mem (hobjects ▸ hx)) (x.linkField g.links f).1 ?_ t ?_
      · rw [hfields]
        exact List.mem_map_of_mem hf
      · rw [(x.linkField_spec hlinks (hnone f hf)).1]
        exact ht
    refine ⟨⟨rfl, rfl, ?_⟩, rfl, rfl⟩
    rw [hfields, List.map_map]
    refine hself.fields.trans (List.map_congr_left fun f hf => ?_)
    exact (x.reloaded_linkField hlinks (hnone f hf)).symm

/-- **Objects that can be taken are saved.** -/
theorem saveObjects_takes (hs : s.store.classes = k) {m : Model} {os : List Object}
    (hroom : m.id = none → s.store.db.lastModel < maxInteger)
    (hos : ∀ o ∈ os, k.get? o.cimType = some o.cls)
    (htakes : ∀ model, m.id = some model ∨ m.id = none ∧ model = s.store.db.lastModel + 1 →
      (s.store.db.nameModel model m.name).Takes model os) :
    ∃ m' saved s', saveObjects m os s = ((m', .ok saved), s') := by
  obtain ⟨model, s₁, hpersist⟩ := exists_persist hroom
  obtain ⟨hid, -, hstore₁⟩ := persist_ok hpersist
  have hclasses₁ : s₁.store.classes = k := by rw [hstore₁]; exact hs
  have htakes₁ : s₁.store.db.Takes model os := by
    rw [hstore₁]
    exact htakes model hid
  obtain ⟨saved, s₂, hbatches⟩ := saveBatches_groupByType hclasses₁ hos htakes₁
  refine ⟨m.setId model, saved, s₂, ?_⟩
  rw [saveObjects_eq, bind_eq hpersist]
  show (saveBatches model (groupByType os) >>= _) _ = _
  rw [bind_eq hbatches]
  rfl

/-- **Objects that restore those of a model are saved** as they are, in any order, and all models
have the objects that they had. -/
theorem saveObjects_restores (h : s.store.Sound k) (hk : k.Storable) {m : Model}
    (hmodel : m.id = some model) {os ps : List Object} (hos : os.Perm ps)
    (hrestores : List.Forall₂ (fun x o => o.Restores x) (s.store.db.contents k model) ps) :
    ∃ saved s', saveObjects m os s = ((m.setId model, .ok saved), s') ∧ saved.Perm os ∧
      s'.store.db.models = s.store.db.models.insert model m.name ∧
      ∀ n, s'.store.db.contents k n = s.store.db.contents k n := by
  have hnamed : (s.store.db.nameModel model m.name).Sound k := h.db.nameModel ..
  have hpaired : ∀ o ∈ os, ∃ x ∈ s.store.db.contents k model, o.Restores x := fun o ho =>
    exists_of_forall₂ hrestores (hos.mem_iff.mp ho)
  have hids : ∀ o ∈ os, o.id ≠ none := by
    intro o ho hnone
    obtain ⟨x, hx, hox⟩ := hpaired o ho
    obtain ⟨id, hid⟩ := (h.db.of_mem_contents hk hx).2.1
    exact nomatch (hid.symm.trans hox.id).trans hnone
  have hid : ∀ n, m.id = some n ∨ m.id = none ∧ n = s.store.db.lastModel + 1 → model = n := by
    rintro n (hn | ⟨hnone, -⟩)
    · exact Option.some.inj (hmodel.symm.trans hn)
    · exact nomatch hnone.symm.trans hmodel
  -- What is saved has the ids, the rdf:IDs and the classes of what is stored.
  have hmirrors : (s.store.db.nameModel model m.name).Mirrors (some model) os := by
    refine (hnamed.mirrors_contents hk model).of_perm ?_
    have hheadings : ps.map Object.heading = (s.store.db.contents k model).map Object.heading :=
      map_eq_map_of_forall₂ (hrestores.imp fun x o hox =>
        Object.heading_eq_iff.mpr ⟨hox.id.symm, hox.rdfid.symm, hox.cls.symm⟩)
    rw [Database.contents_nameModel, ← hheadings]
    exact (hos.map _).symm
  obtain ⟨m', saved, s', hsave⟩ : ∃ m' saved s', saveObjects m os s = ((m', .ok saved), s') := by
    refine saveObjects_takes h.classes (fun hnone => nomatch hnone.symm.trans hmodel) ?known ?takes
    case known =>
      intro o ho
      obtain ⟨x, hx, hox⟩ := hpaired o ho
      rw [Object.cimType, ← hox.cls]
      exact h.db.known_of_mem_contents hk hx
    case takes =>
      intro n hn
      obtain rfl := hid n hn
      exact hmirrors.takes_stored hnamed (SortedMap.contains_insert.mpr (.inl rfl)) hids
  obtain ⟨n, qs, rfl, hn, hqs, hall, -⟩ := saveObjects_ok hk h.classes hsave
  obtain rfl := hid n hn
  have hgiven : qs.map (·.giveTo model) = qs := by
    refine (List.map_congr_left fun o ho => ?_).trans (List.map_id _)
    obtain ⟨x, hx, hox⟩ := hpaired o (hqs.mem_iff.mp ho)
    show { o with model := some model } = o
    rw [← (h.db.of_mem_contents hk hx).1, hox.model]
  rw [hgiven] at hall
  obtain rfl : saved = qs := hall.eq_self fun o ho => hids o (hqs.mem_iff.mp ho)
  have h' : s'.store.Sound k := by
    have := Keeps.saveObjects (Store.invariant_sound hk) m os s h
    rwa [hsave] at this
  have hnodup : (saved.map (·.id)).Nodup := by
    have hmine := hmirrors.of_perm ((hqs.symm).map _)
    refine hall.nodup_ids hmine.nodup fun o ho id hoid => ?_
    obtain ⟨-, st, -, hst, -⟩ := hmine.stored o ho id hoid
    exact hnamed.object_le hst
  refine ⟨saved, s', hsave, hqs, hall.models.1, fun n => ?_⟩
  refine h.db.contents_eq h'.db hk fun id x _ => ?_
  rw [hall.object?_restored hk hnodup (fun o ho => hpaired o (hqs.mem_iff.mp ho)) id]
  exact .rfl

/-- **Saving what was read changes nothing.** In every state that a store is brought to, the objects
of a stored model are read, linked or not, and the targets of their references are in the form in
which they are kept. Saving them, in any order, into a model with that id succeeds and gives every
object back as it was, with the id that it had; and of every model the same is listed and read as
before. -/
theorem Reachable.save_read (hk : k.Storable) (hs : Reachable k s) {model : Int}
    (hm : s.store.modelExists model = true) (linked : Bool) :
    ∃ g s₁, read model linked s = (.ok g, s₁) ∧
      (g.IsNormal → ∀ os : List Object, os.Perm g.objects → ∀ m : Model, m.id = some model →
        ∃ saved s₂, saveObjects m os s₁ = ((m.setId model, .ok saved), s₂) ∧ saved.Perm os ∧
          ∀ n, ReadsAlike s s₂ n ∧ (n ≠ model → Untouched s s₂ n)) := by
  have h := hs.sound hk
  obtain ⟨g, s₁, hread, hstore₁, hrestores⟩ := read_restores h hk hm linked
  refine ⟨g, s₁, hread, fun hnormal os hos m hmodel => ?_⟩
  obtain ⟨saved, s₂, hsave, hsaved, hmodels, hcontents⟩ :=
    saveObjects_restores (hstore₁.symm ▸ h) hk hmodel hos (hstore₁.symm ▸ hrestores hnormal)
  rw [hstore₁] at hmodels hcontents
  have h₂ : s₂.store.Sound k := by
    have := Keeps.saveObjects (Store.invariant_sound hk) m os s₁ (hstore₁.symm ▸ h)
    rwa [hsave] at this
  refine ⟨saved, s₂, hsave, hsaved, fun n => ⟨?_, fun hne => ?_⟩⟩
  · refine .of_contents h h₂ hk ?_ (hcontents n)
    by_cases hn : model = n
    · rw [← hn, hm]
      exact modelExists_insert hmodels (.inl rfl)
    · show (s₂.store.db.models.get? n).isSome = _
      rw [hmodels, SortedMap.get?_insert, if_neg hn]
      rfl
  · refine .of_contents h h₂ hk ?_ (hcontents n)
    rw [Store.modelName?, hmodels, SortedMap.get?_insert, if_neg hne.symm]
    rfl

/-- The grid is read with its links and saved in reverse, under another name. -/
theorem Reachable.save_read_reversed : SmallGrid.service.store.modelExists 1 = true ∧
    ∃ g s₁ saved s₂, read 1 true SmallGrid.service = (.ok g, s₁) ∧ g.IsNormal ∧
      (g.objects.flatMap fun o => o.fields.flatMap fun f => f.slot.links) ≠ [] ∧
      (saveObjects { id := some 1, name := "again" } g.objects.reverse s₁).1.2 = .ok saved ∧
      saved.Perm g.objects.reverse ∧ (read 1 true s₂).1 = .ok g := by
  have hm := SmallGrid.modelExists_service
  have hgraph : (read 1 true SmallGrid.service).1.toOption.all (fun g => decide (g.IsNormal ∧
      (g.objects.flatMap fun o => o.fields.flatMap fun f => f.slot.links) ≠ [])) = true := by
    decide +kernel
  obtain ⟨g, s₁, hread, hsaves⟩ :=
    Reachable.save_read Catalog.standard_storable SmallGrid.reachable_service hm true
  rw [hread] at hgraph
  obtain ⟨hnormal, hlinks⟩ := of_decide_eq_true hgraph
  obtain ⟨saved, s₂, hsave, hperm, hsame⟩ := hsaves hnormal g.objects.reverse
    (List.reverse_perm _) { id := some 1, name := "again" } rfl
  refine ⟨hm, g, s₁, saved, s₂, hread, hnormal, hlinks, by rw [hsave], hperm, ?_⟩
  rw [(hsame 1).1.read true, hread]

end Service

end CimStore

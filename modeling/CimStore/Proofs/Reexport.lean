import CimStore.Proofs.Accounting
import CimStore.Proofs.LinkedReads
import CimStore.Proofs.Filling
import CimStore.Proofs.Interchange

/-!
# Export after import

A payload is saved as a new model, the model is read, and a payload is written of it. This payload
is the last one: it comes back from every further pass as it is.

* `readObjects_spec`: what the objects of any payload have in common;
* `Service.Exports`: one pass, from payload to payload;
* `Service.Reachable.exports_new`: every payload that is read can be passed, and what is written are
  its objects as they are loaded, by class and rdf:ID;
* `Field.reloaded_again`: what was loaded once is loaded the next time as it is;
* `Service.Reachable.exports_again`: the second pass writes what the first one wrote.
-/

namespace CimStore

/-! ## What a payload gives -/

namespace Slot

/-- No target of the reference is an empty id. -/
def IsProper (s : Slot) : Prop := ∀ t ∈ s.targets, t ≠ ""

@[simp]
theorem targets_emptySlot (sort : AttributeSort) : sort.emptySlot.targets = [] := by
  cases sort <;> rfl

/-- Writing adds no empty target. -/
theorem IsProper.write? {text : String} {s t : Slot} (hs : s.IsProper)
    (h : s.write? text = some t) : t.IsProper := by
  cases s with
  | string | boolean =>
    obtain rfl := Option.some.inj h
    exact fun t ht => nomatch ht
  | float | integer | phaseCode =>
    obtain ⟨_, -, rfl⟩ := Option.map_eq_some_iff.mp h
    exact fun t ht => nomatch ht
  | reference r =>
    obtain rfl := Option.some.inj h
    unfold Reference.setId
    simp only
    split
    · exact fun t ht => nomatch ht
    · rename_i hid
      split
      · exact hs
      · intro t ht
        obtain rfl : t = normalizeId text := by simpa [targets, Reference.target?] using ht
        exact hid
  | referenceSet s =>
    obtain rfl := Option.some.inj h
    unfold ReferenceSet.addId
    simp only
    split
    · exact hs
    · rename_i hid
      intro t ht
      obtain ⟨v, hv⟩ := SortedMap.mem_keys.mp ht
      rw [SortedMap.get?_insert] at hv
      split at hv
      · rename_i heq
        rw [← heq]
        simp only [Bool.or_eq_true, not_or, decide_eq_true_eq] at hid
        exact hid.1
      · exact hs t (SortedMap.mem_keys.mpr ⟨v, hv⟩)

end Slot

/-- What setting one text keeps, setting a value keeps. -/
theorem Object.setValue_keeps {P : Object → Prop}
    (hP : ∀ {o x : Object} {name text : String}, o.set name text = .ok x → P o → P x)
    {o x : Object} {name : String} {v : Value} (hset : o.setValue name v = .ok x) (ho : P o) :
    P x := by
  cases v with
  | text t => exact hP hset ho
  | texts ts =>
    unfold Object.setValue at hset
    cases hf : o.field name with
    | error e =>
      rw [hf] at hset
      exact nomatch hset
    | ok f =>
      simp only [hf, bind, Except.bind] at hset
      split at hset
      · exact foldlM_keeps (fun _ _ _ => hP) hset ho
      · exact nomatch hset

/-- The object is as readers of the catalog make it: new, of a known class, and no target of its
references is an empty id. -/
structure Object.IsEntered (known : Catalog) (o : Object) : Prop where
  new : o.id = none
  known : known.get? o.cimType = some o.cls
  proper : ∀ f ∈ o.fields, f.slot.IsProper

namespace Object.IsEntered

variable {known : Catalog} {o x : Object} {name : String}

theorem set {text : String} (h : o.IsEntered known) (hset : o.set name text = .ok x) :
    x.IsEntered known := by
  obtain ⟨hcls, hid, -, hfields⟩ := Object.exists_field_of_change
    (fun f => f.about.write text f.slot) (fun f s => Descriptor.sort_of_write) hset
  have htype : x.cimType = o.cimType := congrArg CimClass.name hcls
  refine ⟨hid.trans h.new, ?_, fun g hg => ?_⟩
  · rw [htype, hcls]
    exact h.known
  · rcases hfields g hg with hg | ⟨f, hf, -, hw⟩
    · exact h.proper g hg
    · exact (h.proper f hf).write? (Descriptor.write_eq_ok.mp hw)

theorem setValue {v : Value} (h : o.IsEntered known) (hset : o.setValue name v = .ok x) :
    x.IsEntered known :=
  setValue_keeps (fun hset ho => ho.set hset) hset h

end Object.IsEntered

namespace Entry

variable {known : Catalog}

theorem isEntered_build (hnames : ∀ {name c}, known.get? name = some c → c.name = name) {e : Entry}
    {o : Object} (h : e.build known = .ok o) : o.IsEntered known := by
  unfold build Catalog.newObject at h
  cases hc : known.find e.cimType with
  | error e =>
    rw [hc] at h
    exact nomatch h
  | ok c =>
    simp only [hc, bind, Except.bind, pure, Except.pure] at h
    have hget := Catalog.find_eq_ok_iff.mp hc
    refine foldlM_keeps (P := Object.IsEntered known) (fun _ _ _ hset ho => ho.setValue hset) h ?_
    refine ⟨rfl, ?_, fun f hf => ?_⟩
    · show known.get? c.name = some c
      rw [hnames hget, hget]
    · obtain ⟨d, -, rfl⟩ := List.mem_map.mp hf
      simp [Slot.IsProper, Field.empty]

theorem buildAll_spec (hnames : ∀ {name c}, known.get? name = some c → c.name = name)
    {es : List Entry} {objects objects' : SortedMap String Object}
    (h : buildAll known es objects = .ok objects')
    (hobjects : ∀ t o, objects.get? t = some o → o.rdfid = t ∧ t ≠ "" ∧ o.IsEntered known) :
    ∀ t o, objects'.get? t = some o → o.rdfid = t ∧ t ≠ "" ∧ o.IsEntered known := by
  induction es generalizing objects with
  | nil => exact Except.ok.inj h ▸ hobjects
  | cons e es ih =>
    rw [buildAll] at h
    cases hbuild : e.build known with
    | error e =>
      rw [hbuild] at h
      cases h
    | ok o =>
      simp only [hbuild, bind, Except.bind] at h
      split at h
      · cases h
      · rename_i hid
        split at h
        · cases h
        · refine ih h fun t a ha => ?_
          rw [SortedMap.get?_insert] at ha
          split at ha
          · rename_i heq
            obtain rfl := Option.some.inj ha
            exact ⟨heq, heq ▸ hid, isEntered_build hnames hbuild⟩
          · exact hobjects t a ha

end Entry

/-- **What the objects of a payload have in common**: they are as readers make them, with rdf:IDs
that are not empty, and come in the order of these. -/
theorem readObjects_spec {known : Catalog}
    (hnames : ∀ {name c}, known.get? name = some c → c.name = name) {payload : String}
    {objects : SortedMap String Object} (h : readObjects known payload = .ok objects) :
    (∀ o ∈ objects.values, o.IsEntered known ∧ o.rdfid ≠ "") ∧
      objects.values.map (·.rdfid) = objects.keys := by
  have hspec : ∀ t o, objects.get? t = some o → o.rdfid = t ∧ t ≠ "" ∧ o.IsEntered known := by
    unfold readObjects at h
    split at h
    · exact Entry.buildAll_spec hnames h fun t o ho => by cases ho
    · cases h
  constructor
  · intro o ho
    obtain ⟨e, he, rfl⟩ := List.mem_map.mp ho
    obtain ⟨hrdfid, hid, hentered⟩ := hspec e.1 e.2 (SortedMap.get?_eq_some_iff.mpr he)
    exact ⟨hentered, hrdfid ▸ hid⟩
  · rw [SortedMap.values, List.map_map]
    refine List.map_congr_left fun e he => ?_
    exact (hspec e.1 e.2 (SortedMap.get?_eq_some_iff.mpr he)).1

/-! ## What is loaded again -/

namespace Slot

@[simp]
theorem targets_bare (s : Slot) : s.bare.targets = s.targets := by
  cases s with
  | reference r => cases r <;> rfl
  | referenceSet s => exact targets_unlinked (.referenceSet s)
  | _ => rfl

@[simp]
theorem bare_bare (s : Slot) : s.bare.bare = s.bare := by
  cases s with
  | float v =>
    cases v with
    | none => rfl
    | some x =>
      by_cases hzero : x.mantissa = 0 <;> simp [bare, Binary.unsignZero, hzero]
  | reference r => cases r <;> rfl
  | referenceSet s => simp [bare, SortedMap.mapValues_mapValues]
  | _ => rfl

@[simp]
theorem unlinked_bare (s : Slot) : s.bare.unlinked = s.bare := by
  cases s with
  | reference r => cases r <;> rfl
  | referenceSet s => simp [bare, unlinked, SortedMap.mapValues_mapValues]
  | _ => rfl

end Slot

namespace Field

theorem ext_slot {f g : Field} (habout : f.about = g.about) (hslot : f.slot = g.slot) : f = g := by
  cases f
  cases g
  simp_all

/-- **What was loaded once is loaded the next time as it is**, also if it was in a payload in
between. -/
theorem reloaded_again {f : Field} (h : f.about.isUsed = true → f.slot.IsStable) :
    f.reloaded.unlinked.reloaded = f.reloaded := by
  have habout : f.reloaded.unlinked.reloaded.about = f.reloaded.about := about_reloaded _
  by_cases hused : f.about.isUsed
  · have hbare : f.reloaded.slot = f.slot.bare :=
      (slot_reloaded hused).trans (Slot.reloaded_eq_bare (h hused))
    have hstable : f.slot.bare.IsStable := by
      intro t ht
      rw [Slot.targets_bare] at ht
      exact h hused t ht
    have hused' : f.reloaded.unlinked.about.isUsed = true := f.about_reloaded.symm ▸ hused
    refine ext_slot habout ?_
    calc
      f.reloaded.unlinked.reloaded.slot = f.reloaded.slot.unlinked.reloaded := slot_reloaded hused'
      _ = f.slot.bare.reloaded := by rw [hbare, Slot.unlinked_bare]
      _ = f.reloaded.slot := by rw [Slot.reloaded_eq_bare hstable, Slot.bare_bare, hbare]
  · -- An attribute that is not used is loaded empty, the first time and again.
    have hunused : f.reloaded.unlinked.about.isUsed = false := by
      show f.reloaded.about.isUsed = false
      simpa [f.about_reloaded] using hused
    rw [reloaded, hunused]
    show Field.empty f.reloaded.about = f.reloaded
    rw [about_reloaded, reloaded, if_neg hused]

end Field

namespace Object

/-- The rdf:ID and the targets of the used references are in the form in which they are kept. -/
structure IsNormal (o : Object) : Prop where
  rdfid : normalizeId o.rdfid = o.rdfid
  targets : ∀ f ∈ o.fields, f.about.isUsed = true → ∀ t ∈ f.slot.targets, normalizeId t = t

instance (o : Object) : Decidable o.IsNormal :=
  decidable_of_iff (normalizeId o.rdfid = o.rdfid ∧
    ∀ f ∈ o.fields, f.about.isUsed = true → ∀ t ∈ f.slot.targets, normalizeId t = t)
    ⟨fun h => ⟨h.1, h.2⟩, fun h => ⟨h.1, h.2⟩⟩

variable {known : Catalog} {o x y : Object}

theorem IsEntered.isStable (h : o.IsEntered known) (hnormal : o.IsNormal) : o.IsStable :=
  fun f hf hused t ht => ⟨h.proper f hf t ht, hnormal.targets f hf hused t ht⟩

/-- What is loaded of an object of a payload can be in a payload again. -/
theorem Reloads.enterable (h : o.Reloads x) (ho : o.IsEntered known) (hid : o.rdfid ≠ "")
    (hnormal : o.IsNormal) : x.Enterable known where
  known := by
    rw [cimType, h.cls]
    exact ho.known
  identified := h.rdfid ▸ ⟨hid, hnormal.rdfid⟩
  stable := by
    intro g hg t ht
    obtain ⟨f, hf, rfl⟩ := List.mem_map.mp (h.fields ▸ hg)
    by_cases hused : f.about.isUsed
    · have hstable := ho.isStable hnormal f hf hused
      rw [Field.slot_reloaded hused, Slot.reloaded_eq_bare hstable, Slot.targets_bare] at ht
      exact hstable t ht
    · simp [Field.reloaded, hused, Field.empty] at ht

/-- What is loaded of it then is written as before. -/
theorem Reloads.ofObject_again (h : o.Reloads x) (ho : o.IsStable) (h' : x.entered.Reloads y) :
    Entry.ofObject y = Entry.ofObject x := by
  have hfields : y.fields = x.fields := by
    rw [h'.fields]
    show (x.fields.map Field.unlinked).map Field.reloaded = x.fields
    rw [h.fields, List.map_map, List.map_map]
    exact List.map_congr_left fun f hf => Field.reloaded_again (ho f hf)
  refine Entry.ofObject_congr h'.rdfid h'.cls ?_
  rw [texts, hfields, texts]

theorem Before.asymm {a b : Object} (h : a.Before b) : ¬b.Before a := by
  rcases h with hlt | ⟨heq, hlt⟩ <;> rintro (hlt' | ⟨heq', hlt'⟩)
  · exact Std.lt_irrefl (Std.lt_trans hlt hlt')
  · exact Std.lt_irrefl (heq' ▸ hlt)
  · exact Std.lt_irrefl (heq ▸ hlt')
  · exact Std.lt_irrefl (Std.lt_trans hlt hlt')

end Object

namespace Loaded

variable {os vs xs ys : List Object}

/-- **What is loaded a second time is written as the first time.** -/
theorem writeObjects_again (h : Loaded os xs) (hos : ∀ o ∈ os, o.IsStable)
    (hvs : vs.Perm (xs.map Object.entered)) (h' : Loaded vs ys) :
    writeObjects ys = writeObjects xs := by
  obtain ⟨ps, hps, hys⟩ := h'.reloads
  obtain ⟨zs, hzs, hperm⟩ := List.perm_comp_forall₂ (hvs.symm.trans hps.symm) hys
  rw [List.forall₂_map_left_iff] at hzs
  -- By class and rdf:ID there is one order.
  have hkeys : zs.map (fun z => (z.cimType, z.rdfid)) = xs.map fun x => (x.cimType, x.rdfid) :=
    map_eq_map_of_forall₂ (hzs.imp fun x z hxz => by
      rw [Object.cimType, hxz.cls, hxz.rdfid]
      rfl)
  have hbefore : zs.Pairwise Object.Before := by
    have hpairs : (xs.map fun x => (x.cimType, x.rdfid)).Pairwise
        fun a b => a.1 < b.1 ∨ a.1 = b.1 ∧ a.2 < b.2 := List.pairwise_map.mpr h.before
    rw [← hkeys, List.pairwise_map] at hpairs
    exact hpairs
  obtain rfl : zs = ys := List.Perm.eq_of_pairwise
    (fun a b _ _ hab hba => absurd hba hab.asymm) hbefore h'.before hperm
  have hentries : zs.map Entry.ofObject = xs.map Entry.ofObject := by
    refine map_eq_map_of_forall₂ ((List.forall₂_and_left (p := fun x => ∃ o ∈ os, o.Reloads x)
      _ _).mpr ⟨fun x hx => h.exists_reloads hx, hzs⟩ |>.imp ?_)
    rintro x z ⟨⟨o, ho, hox⟩, hxz⟩
    exact hox.ofObject_again (hos o ho) hxz
  rw [writeObjects, hentries, writeObjects]

end Loaded

/-! ## From payload to payload -/

namespace Service

variable {k known : Catalog} {s s₁ s' : Service} {m m' : Model} {payload : String}
  {objects : SortedMap String Object}

/-- `payload` is saved into the model, the model is read, and `text` is written of it. -/
def Exports (s : Service) (known : Catalog) (m : Model) (payload : String) (linked : Bool)
    (text : String) (s' : Service) : Prop :=
  ∃ m' saved id s₁ g, savePayload known m payload s = ((m', .ok saved), s₁) ∧ m'.id = some id ∧
    read id linked s₁ = (.ok g, s') ∧ g.write = text

/-- There is one text. -/
theorem Exports.unique {linked : Bool} {text text' : String} {s₁ s₂ : Service}
    (h : s.Exports known m payload linked text s₁)
    (h' : s.Exports known m payload linked text' s₂) : text' = text := by
  obtain ⟨m₁, saved₁, id₁, t₁, g₁, hsave₁, hid₁, hread₁, rfl⟩ := h
  obtain ⟨m₂, saved₂, id₂, t₂, g₂, hsave₂, hid₂, hread₂, rfl⟩ := h'
  rw [hsave₁] at hsave₂
  cases hsave₂
  rw [hid₁] at hid₂
  cases hid₂
  rw [hread₁] at hread₂
  cases hread₂
  rfl

/-- A payload that is read is saved as its objects are; then the inventory is looked up. -/
theorem savePayload_eq (hread : readObjects known payload = .ok objects) {saved : List Object}
    (hsave : saveObjects m objects.values s = ((m', .ok saved), s')) {id : Int}
    (hid : m'.id = some id) :
    ∃ s'', savePayload known m payload s = ((m', .ok saved), s'') ∧ s''.store = s'.store := by
  refine ⟨{ s' with calls := s'.calls ++ [.findObjects id] }, ?_, rfl⟩
  unfold savePayload
  rw [hread]
  show (saveObjects m objects.values >>= _) s = _
  rw [bind_eq hsave]
  simp only [hid]
  rfl

/-- Of a stored model what is loaded is written, whether it is linked or not. -/
theorem read_writes (h : s.store.Sound k) (hk : k.Storable) {model : Int}
    (hm : s.store.modelExists model = true) (linked : Bool) :
    ∃ g s', read model linked s = (.ok g, s') ∧ s'.store = s.store ∧
      g.write = writeObjects (s.store.db.contents k model) := by
  cases linked with
  | false =>
    obtain ⟨s', hread, hstore⟩ := read_unlinked h hk hm
    refine ⟨_, s', hread, hstore, ?_⟩
    rw [Graph.write, objects_unlinked]
  | true =>
    obtain ⟨s', hread, hstore⟩ := read_linked h hk hm
    refine ⟨_, s', hread, hstore, ?_⟩
    have hlinks := Graph.rdfid_of_get?_links (indexExact_unlinked h hk model)
    rw [← objects_unlinked k s model]
    show Entry.renderAll ((linkObjects _ _).1.map _) = Entry.renderAll _
    rw [linkObjects_fst, List.map_map]
    refine congrArg Entry.renderAll (List.map_congr_left fun o _ => ?_)
    exact Entry.ofObject_congr rfl rfl (Object.texts_linkAll hlinks o)

/-- **A payload that is read can be passed through a new model**, as long as there are ids left.
What is written are its objects as they are loaded. -/
theorem Reachable.exports_new (hk : k.Storable) (hs : Reachable k s)
    (hknown : ∀ {name c}, known.get? name = some c → k.get? name = some c)
    (hread : readObjects known payload = .ok objects) (hm : m.id = none)
    (hroom : s.HasRoom objects.size) (linked : Bool) :
    ∃ xs s', s.Exports known m payload linked (writeObjects xs) s' ∧ s'.Reachable k ∧
      s.store.db.Gives 1 objects.size s'.store.db ∧ Loaded objects.values xs := by
  have h := hs.sound hk
  obtain ⟨hentered, hkeys⟩ := readObjects_spec (fun hc => hk.name_eq (hknown hc)) hread
  have hvalues : ∀ o ∈ objects.values, o.id = none ∧ k.get? o.cimType = some o.cls := fun o ho =>
    ⟨(hentered o ho).1.new, hknown (hentered o ho).1.known⟩
  have hordered : objects.values.Pairwise (·.rdfid < ·.rdfid) :=
    List.pairwise_map.mp (hkeys ▸ objects.keys_pairwise)
  have hsize : objects.values.length = objects.size := List.length_map ..
  obtain ⟨saved, s₁, hsave, hall, -⟩ := saveObjects_new hk h hm (hsize ▸ hroom) hvalues
    (hkeys ▸ objects.keys_nodup)
  obtain ⟨s₂, hpayload, hstore⟩ := savePayload_eq hread hsave rfl
  have hreach : Reachable k s₂ := by
    have hperform : (Op.savePayload known m payload).perform s = s₂ := congrArg Prod.snd hpayload
    exact hperform ▸ hs.perform (.savePayload known m payload)
  have h₂ := hreach.sound hk
  rw [← hstore] at hall
  obtain ⟨g, s', hgraph, hstore', hwrite⟩ := read_writes h₂ hk
    (modelExists_insert hall.models.1 (.inl rfl)) linked
  have hreach' : Reachable k s' := by
    have hperform : (Op.read (s.store.db.lastModel + 1) linked).perform s₂ = s' :=
      congrArg Prod.snd hgraph
    exact hperform ▸ hreach.perform (.read (s.store.db.lastModel + 1) linked)
  have hperm := perm_groupByType objects.values
  have hnew : ∀ o ∈ (groupByType objects.values).flatMap (·.objects), o.id = none :=
    fun o ho => (hvalues o (hperm.mem_iff.mp ho)).1
  have hgiven : ∀ o ∈ ((groupByType objects.values).flatMap (·.objects)).map
      (·.giveTo (s.store.db.lastModel + 1)), o.id = none := List.forall_mem_map.mpr hnew
  refine ⟨_, s', ⟨_, saved, _, s₂, g, hpayload, rfl, hgraph, hwrite⟩, hreach', ?_, ?_⟩
  · rw [hstore']
    have hgives := (Database.Gives.nameModel_new ..).trans (.storesAll hall hgiven)
    rwa [List.length_map, hperm.length_eq, hsize, Nat.add_zero, Nat.zero_add] at hgives
  · refine Loaded.of_perm (hall.loaded hk h₂.db hnew (fun hst => h.db.object_le hst)
      (fun {id st} hst hmodel => ?_) (pairwise_groupByType hordered)) hperm
    -- The model is new, so it has no object yet.
    obtain ⟨name, hname⟩ := h.db.owner hst
    have hle := h.db.model_le hname
    omega

/-- **Export after import is a fixed point.** A payload is read whose rdf:IDs and targets of used
references are in the form in which they are kept. It is saved as a new model, by a service of
whatever history that has ids left, the model is read, linked or not, and a text is written of it.
Whenever this text is passed in the same way, through this or any other service, it comes back as it
is. -/
theorem Reachable.exports_again (hk : k.Storable) (hl : k.Labelled)
    (hknown : ∀ {name c}, known.get? name = some c → k.get? name = some c)
    (hread : readObjects known payload = .ok objects)
    (hnormal : ∀ o ∈ objects.values, o.IsNormal) (hs : Reachable k s) (hm : m.id = none)
    (hroom : s.HasRoom objects.size) (linked : Bool) :
    ∃ text s₁, s.Exports known m payload linked text s₁ ∧ s₁.Reachable k ∧
      s.store.db.Gives 1 objects.size s₁.store.db ∧
      ∀ {s' : Service} {m' : Model} (linked' : Bool), Reachable k s' → m'.id = none →
        s'.HasRoom objects.size → (∃ s₂, s'.Exports known m' text linked' text s₂) ∧
          ∀ text' s₂, s'.Exports known m' text linked' text' s₂ → text' = text := by
  obtain ⟨xs, s₁, hexport, hreach, hgives, hloaded⟩ :=
    exports_new hk hs hknown hread hm hroom linked
  refine ⟨writeObjects xs, s₁, hexport, hreach, hgives, fun {s' m'} linked' hs' hm' hroom' => ?_⟩
  obtain ⟨hentered, hkeys⟩ := readObjects_spec (fun hc => hk.name_eq (hknown hc)) hread
  -- What is written can be read again.
  have hrdfids : (xs.map (·.rdfid)).Nodup :=
    hloaded.map_rdfid.nodup_iff.mpr (hkeys ▸ objects.keys_nodup)
  have henterable : ∀ x ∈ xs, x.Enterable known := by
    intro x hx
    obtain ⟨o, ho, hox⟩ := hloaded.exists_reloads hx
    exact hox.enterable (hentered o ho).1 (hentered o ho).2 (hnormal o ho)
  have hlabelled : known.Labelled := fun e he =>
    hl.of_get? (hknown (SortedMap.get?_eq_some_iff.mpr he))
  have hread' := readObjects_writeObjects hlabelled henterable hrdfids
  have hentries := perm_entries_entered hrdfids
  have hsize : (SortedMap.ofList (xs.map fun o => (o.rdfid, o.entered))).size = objects.size := by
    have hlength := hloaded.map_rdfid.length_eq
    rw [List.length_map, hkeys] at hlength
    rw [SortedMap.size, hentries.length_eq, List.length_map, hlength]
    exact List.length_map ..
  have hvs : (SortedMap.ofList (xs.map fun o => (o.rdfid, o.entered))).values.Perm
      (xs.map Object.entered) := by
    have hvalues := hentries.map (·.2)
    rwa [List.map_map] at hvalues
  -- The second pass writes what was loaded of it.
  obtain ⟨ys, s₂, hexport', -, -, hloaded'⟩ :=
    exports_new hk hs' hknown hread' hm' (hsize ▸ hroom') linked'
  rw [hloaded.writeObjects_again (fun o ho => (hentered o ho).1.isStable (hnormal o ho)) hvs
    hloaded'] at hexport'
  exact ⟨⟨s₂, hexport'⟩, fun text' s₃ h => hexport'.unique h⟩

end Service

namespace SmallGrid

/-- A node and a line whose ids have marks and blanks, with a set that is not used and a zero with a
sign. -/
def markedEntries : List Entry :=
  [⟨"#_n1", "TopologicalNode", SortedMap.ofList [("name", .text "north"),
      ("Terminal", .texts ["#_t1", "_t2"])]⟩,
    ⟨" _l ", "ACLineSegment", SortedMap.ofList [("EquipmentContainer", .text "#_l"),
      ("x", .text "-0.0")]⟩]

end SmallGrid

namespace Service

/-- What is written of them comes back through the same store, now linked. -/
theorem Reachable.exports_again_markedEntries : ∃ objects text s₁ s₂,
    readObjects .standard (Entry.renderAll SmallGrid.markedEntries) = .ok objects ∧
      objects.keys = ["_l", "_n1"] ∧
      (Service.opened .standard).Exports .standard (.named "first")
        (Entry.renderAll SmallGrid.markedEntries) false text s₁ ∧
      s₁.Exports .standard (.named "second") text true text s₂ := by
  have hcanonical : ∀ e ∈ SmallGrid.markedEntries, ∀ a ∈ e.attributes.entries,
      Entry.IsCanonical a.2 := by decide +kernel
  have hbuild : (Entry.buildAll .standard SmallGrid.markedEntries .empty).toOption.any
      (fun objects => objects.keys = ["_l", "_n1"] ∧ ∀ o ∈ objects.values, o.IsNormal) = true := by
    decide +kernel
  cases hobjects : Entry.buildAll .standard SmallGrid.markedEntries .empty with
  | error e =>
    rw [hobjects] at hbuild
    exact nomatch hbuild
  | ok objects =>
    rw [hobjects] at hbuild
    obtain ⟨hkeys, hnormal⟩ := of_decide_eq_true hbuild
    have hread : readObjects .standard (Entry.renderAll SmallGrid.markedEntries) = .ok objects := by
      rw [readObjects, Entry.readAll_renderAll hcanonical]
      exact hobjects
    have hsize : objects.size = 2 := (List.length_map _).symm.trans (congrArg List.length hkeys)
    have hroom : (Service.opened .standard).HasRoom objects.size := by
      rw [hsize]
      exact ⟨by decide, by decide⟩
    have hfirst : (Model.named "first").id = none := rfl
    have hsecond : (Model.named "second").id = none := rfl
    obtain ⟨text, s₁, hexport, hreach, hgives, hagain⟩ :=
      Reachable.exports_again Catalog.standard_storable Catalog.standard_labelled (fun hc => hc)
        hread hnormal (Reachable.opened .standard) hfirst hroom false
    -- The first pass has given one id to the model and two to the objects.
    have hroom' : s₁.HasRoom objects.size := by
      constructor
      · rw [hgives.lastModel]
        decide
      · rw [hgives.lastObject, hsize]
        decide
    obtain ⟨⟨s₂, hexport'⟩, -⟩ := hagain true hreach hsecond hroom'
    exact ⟨objects, text, s₁, s₂, hread, hkeys, hexport, hexport'⟩

end Service

end CimStore

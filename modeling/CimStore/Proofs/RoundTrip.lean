import CimStore.Proofs.Reading
import CimStore.Proofs.Saving

/-!
# Saved objects read back

Objects that are saved into a model are read back as they were, and nothing else changes:

* `Object.IsReadBack`: one object is what is read of another;
* `Service.saveObjects_ok`: what a successful save stores, and where;
* `Service.Reachable.read_saveObjects`: the round trip, with all other stored objects in the frame.
-/

namespace CimStore

/-! ## What is read of an object -/

/-- `g` is what is read of the attribute `f`. -/
structure Field.IsReadBack (f g : Field) : Prop where
  about : g.about = f.about
  /-- A used attribute has its value: the same slot, but for links and the sign of zero. -/
  used : f.about.isUsed = true → g.slot = f.slot.bare
  value : f.about.isUsed = true → f.slot.isNegativeZero = false → g.slot.read = f.slot.read
  /-- Any other attribute is unset. -/
  inert : f.about.isUsed = false → g.slot = f.about.sort.emptySlot
  unlinked : g.slot.links = []

/-- `x` is what is read of the saved object `o`. -/
structure Object.IsReadBack (o x : Object) : Prop where
  cls : x.cls = o.cls
  id : x.id = o.id
  rdfid : x.rdfid = o.rdfid
  model : x.model = o.model
  fields : List.Forall₂ Field.IsReadBack o.fields x.fields

/-- The targets of the used references are ids in the form in which they are kept. -/
def Object.IsStable (o : Object) : Prop :=
  ∀ f ∈ o.fields, f.about.isUsed = true → f.slot.IsStable

instance (o : Object) : Decidable o.IsStable :=
  inferInstanceAs (Decidable (∀ f ∈ o.fields, f.about.isUsed = true → f.slot.IsStable))

theorem Field.isReadBack_reloaded {f : Field} (h : f.about.isUsed = true → f.slot.IsStable) :
    f.IsReadBack f.reloaded where
  about := f.about_reloaded
  used hused := (slot_reloaded hused).trans (Slot.reloaded_eq_bare (h hused))
  value hused hzero := by
    rw [slot_reloaded hused, Slot.reloaded_eq_bare (h hused), Slot.read_bare hzero]
  inert hused := by
    rw [reloaded, hused]
    rfl
  unlinked := f.links_reloaded

theorem Object.isReadBack_reloaded {o : Object} {id model : Int} (hid : o.id = some id)
    (hmodel : o.model = some model) (h : o.IsStable) :
    o.IsReadBack (o.reloaded id o.rdfid model) where
  cls := rfl
  id := hid.symm
  rdfid := rfl
  model := hmodel.symm
  fields := by
    show List.Forall₂ _ o.fields (o.fields.map Field.reloaded)
    rw [List.forall₂_map_right_iff, List.forall₂_same]
    exact fun f hf => Field.isReadBack_reloaded (h f hf)

/-! ## What a save stores -/

namespace Database

variable {k : Catalog} {db db' : Database} {model : Int} {os os' : List Object}

/-- A stored object with a row of its own class is loaded from that row. -/
theorem object?_eq (hk : k.Storable) {o : Object} {id : Int} {st : StoredObject}
    (hst : db.objects.get? id = some st) (hcls : k.get? o.cls.name = some o.cls)
    (htype : st.cimType = o.cls.name) (hrow : st.rows.get? o.cls.name = some o.row) :
    db.object? k id = some (o.reloaded id st.rdfid st.model) := by
  have hload := load?_eq hst hrow (hk.storable hcls)
  simp only [object?, hst, htype, hcls, hload, Option.bind_eq_bind, Option.bind_some]
  rfl

/-- The objects of a model have different ids. -/
theorem Sound.filter_id_contents (h : db.Sound k) (hk : k.Storable) {model : Int} {o : Object}
    (ho : o ∈ db.contents k model) :
    (db.contents k model).filter (fun x => x.id = o.id) = [o] := by
  have hdistinct : (db.contents k model).Pairwise fun a b => a.id ≠ b.id := by
    refine (h.pairwise_contents hk model).imp_of_mem ?_
    intro a b ha hb hprec hid
    obtain ⟨i, _, -, -, hai⟩ := mem_contents.mp ha
    obtain ⟨j, _, -, -, hbj⟩ := mem_contents.mp hb
    obtain ⟨_, -, hia, -⟩ := object?_some hk hai
    obtain ⟨_, -, hjb, -⟩ := object?_some hk hbj
    obtain rfl : i = j := by simpa [hia, hjb] using hid
    rw [hai, Option.some.injEq] at hbj
    exact Object.not_precedes_self a (hbj ▸ hprec)
  generalize db.contents k model = os at *
  induction os with
  | nil => exact absurd ho List.not_mem_nil
  | cons a os ih =>
    rw [List.pairwise_cons] at hdistinct
    rcases List.mem_cons.mp ho with rfl | ho
    · rw [List.filter_cons_of_pos (by simp), List.filter_eq_nil_iff.mpr]
      intro b hb heq
      exact hdistinct.1 b hb (by simpa using (decide_eq_true_eq.mp heq).symm)
    · have hne := hdistinct.1 o ho
      rw [List.filter_cons_of_neg (by simpa using hne)]
      exact ih ho hdistinct.2

/-- **A saved object is loaded as it was saved**, under the conditions of `stored_of_mem`. -/
theorem StoresAll.mem_contents (h : StoresAll k model db os os' db') (hk : k.Storable)
    (hnodup : (os'.map (·.id)).Nodup)
    (hle : ∀ {id st}, db.objects.get? id = some st → id ≤ db.lastObject)
    (hclass : ∀ o ∈ os, ∀ id, o.id = some id → ∀ st, db.objects.get? id = some st →
      st.cimType = o.cimType) {o' : Object} (ho' : o' ∈ os') :
    ∃ id, o'.id = some id ∧ o'.model = some model ∧
      o'.reloaded id o'.rdfid model ∈ db'.contents k model := by
  obtain ⟨id, st, hid, homodel, hcls, hst, hrdfid, hmodel, hrow, htype, -⟩ :=
    h.stored_of_mem hnodup hle hclass ho'
  have hload := object?_eq hk hst hcls htype hrow
  rw [hrdfid, hmodel] at hload
  exact ⟨id, hid, homodel, Database.mem_contents.mpr ⟨id, st, hst, hmodel, hload⟩⟩

/-- **Other objects are loaded as before**, whatever model owns them. -/
theorem StoresAll.mem_contents_iff (h : StoresAll k model db os os' db') (hk : k.Storable)
    {n : Int} {x : Object} (hx : x.id ∉ os'.map (·.id)) :
    x ∈ db'.contents k n ↔ x ∈ db.contents k n := by
  have hframe : ∀ id, x.id = some id → db'.objects.get? id = db.objects.get? id := by
    intro id hid
    exact h.get?_of_not_mem fun o ho hoid => hx (List.mem_map.mpr ⟨o, ho, hoid.trans hid.symm⟩)
  rw [Database.mem_contents, Database.mem_contents]
  constructor
  · rintro ⟨id, st, hst, hmodel, hobj⟩
    obtain ⟨-, -, hid, -⟩ := object?_some hk hobj
    have hsame := hframe id hid
    exact ⟨id, st, hsame.symm.trans hst, hmodel, (object?_congr hsame).symm.trans hobj⟩
  · rintro ⟨id, st, hst, hmodel, hobj⟩
    obtain ⟨-, -, hid, -⟩ := object?_some hk hobj
    have hsame := hframe id hid
    exact ⟨id, st, hsame.trans hst, hmodel, (object?_congr hsame).trans hobj⟩

end Database

namespace Service

variable {k : Catalog} {s s' : Service}

/-- **What saving objects does**: the model is stored, then the objects up to the first that cannot
be saved, batch by batch. -/
theorem saveObjects_spec (hk : k.Storable) (hs : s.store.classes = k) {m m' : Model}
    {os : List Object} {r : Except Error (List Object)} (h : saveObjects m os s = ((m', r), s')) :
    (∃ e, r = .error e ∧ m' = m ∧ m.id = none) ∨
    ∃ (model : Int) (pre pre' post : List Object),
      (m.id = some model ∨ m.id = none ∧ model = s.store.db.lastModel + 1) ∧
      m' = m.setId model ∧ (pre ++ post).Perm os ∧
      Database.StoresAll k model (s.store.db.nameModel model m.name) (pre.map (·.giveTo model)) pre'
        s'.store.db ∧
      s'.store = { s.store with db := s'.store.db } ∧
      ((∃ e, r = .error e) ∨ r = .ok pre' ∧ post = []) := by
  rw [saveObjects_eq] at h
  rcases hpersist : persist m s with ⟨⟨m₁, r₁⟩, s₁⟩
  rw [bind_eq hpersist] at h
  cases r₁ with
  | error e =>
    cases h
    exact .inl ⟨e, rfl, persist_error hpersist⟩
  | ok model =>
    obtain ⟨hid, rfl, hstore₁⟩ := persist_ok hpersist
    have hclasses : s₁.store.classes = k := by rw [hstore₁]; exact hs
    change (saveBatches model (groupByType os) >>= _) _ = _ at h
    rcases hbatches : saveBatches model (groupByType os) s₁ with ⟨⟨os', r₂⟩, s₂⟩
    obtain ⟨pre, pre', post, post', hbs, rfl, hall, hpost, hok, hstore⟩ :=
      saveBatches_spec hk hclasses hbatches
    rw [bind_eq hbatches] at h
    cases h
    rw [hstore₁] at hall hstore
    refine .inr ⟨model, pre, pre', post, hid, rfl, hbs ▸ perm_groupByType os, hall, hstore, ?_⟩
    cases r₂ with
    | error e => exact .inl ⟨e, rfl⟩
    | ok _ =>
      obtain rfl := hok rfl
      obtain rfl : post' = [] := by simpa using hpost
      rw [List.append_nil]
      exact .inr ⟨rfl, rfl⟩

/-- A successful save stores the model and then all objects. -/
theorem saveObjects_ok (hk : k.Storable) (hs : s.store.classes = k) {m m' : Model}
    {os saved : List Object} (h : saveObjects m os s = ((m', .ok saved), s')) :
    ∃ (model : Int) (ps : List Object), m' = m.setId model ∧
      (m.id = some model ∨ m.id = none ∧ model = s.store.db.lastModel + 1) ∧ ps.Perm os ∧
      Database.StoresAll k model (s.store.db.nameModel model m.name) (ps.map (·.giveTo model)) saved
        s'.store.db ∧
      s'.store = { s.store with db := s'.store.db } := by
  rcases saveObjects_spec hk hs h with ⟨e, hr, -⟩ | ⟨model, pre, pre', post, hid, hm', hperm, hall,
    hstore, ⟨e, hr⟩ | ⟨hr, rfl⟩⟩
  · exact nomatch hr
  · exact nomatch hr
  · cases hr
    rw [List.append_nil] at hperm
    exact ⟨model, pre, hm', hid, hperm, hall, hstore⟩

/-- With one more model stored, no model is lost. -/
theorem modelExists_insert {s s' : Store} {model n : Int} {name : Option String}
    (h : s'.db.models = s.db.models.insert model name)
    (hn : n = model ∨ s.modelExists n = true) : s'.modelExists n = true := by
  rw [Store.modelExists, h]
  exact SortedMap.contains_insert.mpr (hn.imp_left Eq.symm)

/-- **Save and read round trip.** Objects are saved into a model with different ids, each new or
under the id of an object of its class that the model stores. If the save succeeds, reading the
model unlinked gives for each of them exactly one object under its id, with its class, its rdf:ID
and its values, and without links; every other stored object, of whatever model, is read as
before. -/
theorem Reachable.read_saveObjects (hk : k.Storable) (hs : Reachable k s) {m m' : Model}
    {os saved : List Object} (hids : (os.filterMap (·.id)).Nodup)
    (hown : ∀ o ∈ os, ∀ id, o.id = some id →
      ∃ model, m.id = some model ∧ (id, o.cimType) ∈ s.store.findObjects model)
    (hstable : ∀ o ∈ os, o.IsStable)
    (hsave : saveObjects m os s = ((m', .ok saved), s')) :
    ∃ model, m'.id = some model ∧
      (∃ ps, ps.Perm os ∧ List.Forall₂ (Object.SavedAs model) ps saved) ∧
      (∃ g s₂, read model false s' = (.ok g, s₂) ∧
        ∀ o ∈ saved, ∃ x, g.objects.filter (fun y => y.id = o.id) = [x] ∧ o.IsReadBack x) ∧
      ∀ n, s.store.modelExists n = true → ∃ g g' s₁ s₂,
        read n false s = (.ok g, s₁) ∧ read n false s' = (.ok g', s₂) ∧
        (∀ x ∈ g.objects, x.id ∉ os.map (·.id) → x ∈ g'.objects) ∧
        ∀ x ∈ g'.objects, x ∈ g.objects ∨ x.id ∈ saved.map (·.id) := by
  have h := hs.sound hk
  obtain ⟨model, ps, rfl, hid, hperm, hall, hstore⟩ := saveObjects_ok hk h.classes hsave
  have h' : s'.store.Sound k := by
    have := Keeps.saveObjects (Store.invariant_sound hk) m os s h
    rwa [hsave] at this
  have hle : ∀ {id st}, s.store.db.objects.get? id = some st → id ≤ s.store.db.lastObject :=
    h.db.object_le
  -- The ids with which the objects came are stored, for objects of their classes.
  have howned : ∀ o ∈ ps.map (·.giveTo model), ∀ id, o.id = some id →
      ∃ st, s.store.db.objects.get? id = some st ∧ st.cimType = o.cimType := by
    intro o ho id hoid
    obtain ⟨p, hp, rfl⟩ := List.mem_map.mp ho
    obtain ⟨n, -, hinfo⟩ := hown p (hperm.mem_iff.mp hp) id hoid
    obtain ⟨st, hst, -, htype⟩ := Database.mem_objectsOf.mp hinfo
    exact ⟨st, hst, htype⟩
  have hclass : ∀ o ∈ ps.map (·.giveTo model), ∀ id, o.id = some id →
      ∀ st, s.store.db.objects.get? id = some st → st.cimType = o.cimType := by
    intro o ho id hoid st hst
    obtain ⟨st', hst', htype⟩ := howned o ho id hoid
    rw [hst, Option.some.injEq] at hst'
    exact hst' ▸ htype
  have hnodup : (saved.map (·.id)).Nodup := by
    refine hall.nodup_ids ?_ fun o ho id hoid => ?_
    · rw [List.filterMap_map]
      exact (hperm.filterMap _).nodup_iff.mpr hids
    · obtain ⟨st, hst, -⟩ := howned o ho id hoid
      exact hle hst
  have hmodels := hall.models.1
  refine ⟨model, rfl, ⟨ps, hperm, ?_⟩, ?_, ?_⟩
  · exact (List.forall₂_map_left_iff.mp hall.savedAs).imp fun _ _ h => h
  · have hexists : s'.store.modelExists model = true := modelExists_insert hmodels (.inl rfl)
    obtain ⟨s₂, hread, -⟩ := read_unlinked h' hk hexists
    refine ⟨_, s₂, hread, fun o' ho' => ?_⟩
    obtain ⟨id, hoid, homodel, hmem⟩ := hall.mem_contents hk hnodup hle hclass ho'
    have hstable' : o'.IsStable := by
      obtain ⟨p, hp, _, rfl, -⟩ := hall.exists_savedAs ho'
      obtain ⟨o, ho, rfl⟩ := List.mem_map.mp hp
      exact hstable o (hperm.mem_iff.mp ho)
    refine ⟨_, ?_, Object.isReadBack_reloaded hoid homodel hstable'⟩
    rw [objects_unlinked, hoid]
    exact h'.db.filter_id_contents hk hmem
  · intro n hn
    have hn' : s'.store.modelExists n = true := modelExists_insert hmodels (.inr hn)
    obtain ⟨s₁, hread₁, -⟩ := read_unlinked h hk hn
    obtain ⟨s₂, hread₂, -⟩ := read_unlinked h' hk hn'
    refine ⟨_, _, s₁, s₂, hread₁, hread₂, ?_, ?_⟩
    · intro x hx hnot
      rw [objects_unlinked] at hx ⊢
      obtain ⟨id, st, hst, -, hobj⟩ := Database.mem_contents.mp hx
      obtain ⟨-, -, hxid, -⟩ := Database.object?_some hk hobj
      have hbefore : ∀ o ∈ ps.map (·.giveTo model), o.id ≠ some id := by
        intro o ho hoid
        obtain ⟨p, hp, rfl⟩ := List.mem_map.mp ho
        exact hnot (hxid ▸ List.mem_map.mpr ⟨p, hperm.mem_iff.mp hp, hoid⟩)
      have hother : x.id ∉ saved.map (·.id) := by
        intro hmem
        obtain ⟨o', ho', heq⟩ := List.mem_map.mp hmem
        exact hall.id_ne_of_get? hle hst hbefore o' ho' (heq.trans hxid)
      exact (hall.mem_contents_iff hk hother).mpr hx
    · intro x hx
      rw [objects_unlinked] at hx ⊢
      by_cases hmem : x.id ∈ saved.map (·.id)
      · exact .inr hmem
      · exact .inl ((hall.mem_contents_iff hk hmem).mp hx)

/-- The island of the grid with other members and without a name, and a new terminal. -/
def changedGrid : List Object :=
  [{ SmallGrid.object .topologicalIsland "_i" [("TopologicalNodes", "_n2")] with id := some 1 },
    SmallGrid.object .terminal "_t" [("sequenceNumber", "-7"), ("phases", "PhaseCode.ABN"),
      ("connected", "false"), ("TopologicalNode", "_n1")]]

/-- They are saved into the model of the grid, and read back from it. -/
theorem Reachable.read_saveObjects_smallGrid : ∃ m' saved s' g s₂,
    saveObjects { id := some 1 } changedGrid SmallGrid.service = ((m', .ok saved), s') ∧
      saved.length = 2 ∧ read 1 false s' = (.ok g, s₂) ∧
      ∀ o ∈ saved, ∃ x, g.objects.filter (fun y => y.id = o.id) = [x] ∧ o.IsReadBack x := by
  have hids : (changedGrid.filterMap (·.id)).Nodup := by decide +kernel
  have hisland : (1, "TopologicalIsland") ∈ SmallGrid.service.store.findObjects 1 := by
    rw [SmallGrid.findObjects_service]
    exact List.mem_cons_self ..
  have hown : ∀ o ∈ changedGrid, ∀ id, o.id = some id → ∃ model, some 1 = some model ∧
      (id, o.cimType) ∈ SmallGrid.service.store.findObjects model := by
    intro o ho id hid
    rcases List.mem_cons.mp ho with rfl | ho
    · obtain rfl : 1 = id := Option.some.inj hid
      exact ⟨1, rfl, hisland⟩
    · rw [List.mem_singleton.mp ho] at hid
      exact nomatch hid
  have hstable : ∀ o ∈ changedGrid, o.IsStable := by decide +kernel
  have hok : (saveObjects { id := some 1 } changedGrid SmallGrid.service).1.2.isOk = true ∧
      (saveObjects { id := some 1 } changedGrid SmallGrid.service).1.1.id = some 1 := by
    decide +kernel
  rcases hsave : saveObjects { id := some 1 } changedGrid SmallGrid.service with ⟨⟨m', r⟩, s'⟩
  rw [hsave] at hok
  obtain ⟨hok, hone⟩ := hok
  cases r with
  | error e => exact nomatch hok
  | ok saved =>
    obtain ⟨model, hid, ⟨ps, hperm, hsaved⟩, ⟨g, s₂, hread, hback⟩, -⟩ :=
      Reachable.read_saveObjects Catalog.standard_storable SmallGrid.reachable_service hids hown
        hstable hsave
    obtain rfl : 1 = model := Option.some.inj (hone.symm.trans hid)
    exact ⟨m', saved, s', g, s₂, rfl, hsaved.length_eq ▸ hperm.length_eq ▸ rfl, hread, hback⟩

end Service

end CimStore

import CimStore.Proofs.Reexport
import CimStore.Proofs.Untouched
import CimStore.Transaction

/-!
# Importing a payload

A payload is saved as a new model in a transaction of its own. So either the model is there, with
one object for each entry of the payload, or the store is as it was.

* `Entry.perm_buildAll`: the objects of a payload have the rdf:IDs and the classes of its entries;
* `Service.transact_ok`, `Service.transact_error`: what a transaction leaves, also if it has been
  taken back before its end, as it is when a model cannot be given an id;
* `Service.Adds`: a new model is there with the objects of some entries, and all else is untouched;
* `Service.importModel_cases`: an import adds a model or changes nothing, and
  `Service.importModel_ok_iff`: as long as there are ids left it adds one if the payload can be
  read.
-/

namespace CimStore

/-! ## The objects of a payload -/

/-- What an object is found by: its rdf:ID and its class. -/
def Object.key (o : Object) : String × String := (o.rdfid, o.cimType)

/-- What the object of an entry is found by. -/
def Entry.key (e : Entry) : String × String := (normalizeId e.rdfid, e.cimType)

/-- Setting a value changes neither. -/
theorem Object.key_setValue {o x : Object} {name : String} {v : Value}
    (h : o.setValue name v = .ok x) : x.key = o.key := by
  refine setValue_keeps (P := fun x => x.key = o.key) (fun {a b name text} hset ha => ?_) h rfl
  obtain ⟨hcls, -, hrdfid, -⟩ := exists_field_of_change
    (fun f => f.about.write text f.slot) (fun f s => Descriptor.sort_of_write) hset
  rw [← ha, key, key, hrdfid, cimType, hcls, cimType]

namespace Entry

variable {known : Catalog}

theorem key_build (hnames : ∀ {name c}, known.get? name = some c → c.name = name) {e : Entry}
    {o : Object} (h : e.build known = .ok o) : o.key = e.key := by
  unfold build Catalog.newObject at h
  cases hc : known.find e.cimType with
  | error e =>
    rw [hc] at h
    exact nomatch h
  | ok c =>
    simp only [hc, bind, Except.bind, pure, Except.pure] at h
    refine foldlM_keeps (P := fun o => o.key = e.key)
      (fun _ _ _ hset ho => (Object.key_setValue hset).trans ho) h ?_
    exact Prod.ext rfl (hnames (Catalog.find_eq_ok_iff.mp hc))

/-- **There is one object for each entry.** -/
theorem perm_buildAll (hnames : ∀ {name c}, known.get? name = some c → c.name = name)
    {es : List Entry} {objects objects' : SortedMap String Object}
    (h : buildAll known es objects = .ok objects') :
    (objects'.values.map Object.key).Perm (es.map key ++ objects.values.map Object.key) := by
  induction es generalizing objects with
  | nil => exact Except.ok.inj h ▸ .refl _
  | cons e es ih =>
    rw [buildAll] at h
    cases hbuild : e.build known with
    | error e =>
      rw [hbuild] at h
      cases h
    | ok o =>
      simp only [hbuild, bind, Except.bind] at h
      split at h
      · cases h
      · split at h
        · cases h
        · rename_i hnew
          have hinsert := SortedMap.perm_entries_insert (by simpa using hnew) o
          have hvalues : ((objects.insert o.rdfid o).values.map Object.key).Perm
              (e.key :: objects.values.map Object.key) := by
            rw [← key_build hnames hbuild]
            exact (hinsert.map (·.2)).map Object.key
          exact (ih h).trans ((hvalues.append_left _).trans List.perm_middle)

end Entry

/-- The objects of a payload have the keys of its entries. -/
theorem perm_readObjects {known : Catalog}
    (hnames : ∀ {name c}, known.get? name = some c → c.name = name) {payload : String}
    {objects : SortedMap String Object} (h : readObjects known payload = .ok objects) :
    ∃ es, Entry.readAll payload = .ok es ∧
      (objects.values.map Object.key).Perm (es.map Entry.key) := by
  unfold readObjects at h
  split at h
  · rename_i es hes
    have hperm := Entry.perm_buildAll hnames h
    rw [show (SortedMap.empty : SortedMap String Object).values = [] from rfl, List.map_nil,
      List.append_nil] at hperm
    exact ⟨es, hes, hperm⟩
  · exact nomatch h

/-! ## Transactions -/

/-- The store can go back to the content: it is in a transaction that began with it, or such a
transaction has been taken back. -/
def Store.CanUndo (s : Store) (db : Database) : Prop :=
  s.begun = some db ∨ s.begun = none ∧ s.db = db

namespace Service

variable {k : Catalog} {s s₁ s' : Service}

/-- The service in a transaction that has just begun. -/
def inTransaction (s : Service) : Service :=
  { s with store := { s.store with begun := some s.store.db } }

/-- The service after its transaction, with the content. -/
def outOfTransaction (s : Service) (db : Database) : Service :=
  { s with store := { s.store with db := db, begun := none } }

theorem inTransaction_sound (h : s.store.Sound k) : s.inTransaction.store.Sound k :=
  ⟨h.classes, h.db, fun _ hdb => Option.some.inj hdb ▸ h.db⟩

section Transact

variable {α : Type} {f : StateM Service (Except Error α)}

private theorem tryStore_begin (hs : s.store.begun = none) :
    tryStore Store.begin s = (.ok (), s.inTransaction) := by
  rw [tryStore, Store.begin, hs]
  rfl

/-- A transaction that is open when the operation has succeeded is committed. -/
theorem transact_ok (hs : s.store.begun = none) {a : α} (hf : f s.inTransaction = (.ok a, s₁))
    (hopen : s₁.store.begun ≠ none) :
    transact f s = (.ok a, s₁.outOfTransaction s₁.store.db) := by
  obtain ⟨db, hdb⟩ := Option.ne_none_iff_exists'.mp hopen
  have hcommit : tryStore Store.commit s₁ = (.ok (), s₁.outOfTransaction s₁.store.db) := by
    rw [tryStore, Store.commit, hdb]
    rfl
  unfold transact
  rw [bind_eq (tryStore_begin hs)]
  show (f >>= _) _ = _
  rw [bind_eq hf]
  show (tryStore Store.commit >>= _) _ = _
  rw [bind_eq hcommit]
  rfl

/-- An operation that has failed is taken back, which can fail, too. -/
private theorem transact_rollBack {s₂ : Service} (hs : s.store.begun = none) {e : Error}
    (hf : f s.inTransaction = (.error e, s₁)) {r : Except Error Unit}
    (hback : tryStore Store.rollBack s₁ = (r, s₂)) : ∃ e', transact f s = (.error e', s₂) := by
  unfold transact
  rw [bind_eq (tryStore_begin hs)]
  show ∃ e', (f >>= _) s.inTransaction = (Except.error e', s₂)
  rw [bind_eq hf]
  show ∃ e', (tryStore Store.rollBack >>= _) s₁ = (Except.error e', s₂)
  rw [bind_eq hback]
  cases r with
  | ok _ => exact ⟨e, rfl⟩
  | error e' => exact ⟨e', rfl⟩

/-- **After an operation that has failed the content is that of the beginning.** -/
theorem transact_error (hs : s.store.begun = none) {e : Error}
    (hf : f s.inTransaction = (.error e, s₁)) (hundo : s₁.store.CanUndo s.store.db) :
    ∃ e', transact f s = (.error e', s₁.outOfTransaction s.store.db) := by
  rcases hundo with hopen | ⟨hnone, hdb⟩
  · have hback : tryStore Store.rollBack s₁ = (.ok (), s₁.outOfTransaction s.store.db) := by
      rw [tryStore, Store.rollBack, hopen]
      rfl
    exact transact_rollBack hs hf hback
  · -- There is nothing left to take back, which is the error that is reported.
    have hback : tryStore Store.rollBack s₁ = (.error (.storage .nothingToRollBack), s₁) := by
      rw [tryStore, Store.rollBack, hnone]
    have hsame : s₁.outOfTransaction s.store.db = s₁ := by
      unfold outOfTransaction
      rw [← hdb, ← hnone]
    rw [hsame]
    exact transact_rollBack hs hf hback

end Transact

/-- A model that cannot be given an id takes the open transaction back. -/
theorem store_persist_error {m m' : Model} {e : Error} (h : persist m s = ((m', .error e), s')) :
    s'.store = { s.store with db := s.store.begun.getD s.store.db, begun := none } := by
  rw [persist_eq] at h
  rcases s.store.saveModel_cases m with ⟨i, hsave, -⟩ | ⟨e, hsave, -⟩
  · rw [note_onStore_eq hsave] at h
    exact nomatch h
  · rw [note_onStore_eq hsave] at h
    cases h
    rfl

/-- Objects that are not saved leave the transaction open, or it has been taken back. -/
theorem canUndo_saveObjects (hk : k.Storable) (hs : s.store.classes = k) {db : Database}
    (hopen : s.store.begun = some db) {m m' : Model} {os : List Object}
    {r : Except Error (List Object)} (h : saveObjects m os s = ((m', r), s')) :
    s'.store.CanUndo db ∧ (r.isOk = true → s'.store.begun = some db) := by
  rw [saveObjects_eq] at h
  rcases hpersist : persist m s with ⟨⟨m₁, r₁⟩, s₁⟩
  rw [bind_eq hpersist] at h
  cases r₁ with
  | error e =>
    cases h
    refine ⟨.inr ?_, fun hok => nomatch hok⟩
    rw [store_persist_error hpersist, hopen]
    exact ⟨rfl, rfl⟩
  | ok model =>
    obtain ⟨-, -, hstore₁⟩ := persist_ok hpersist
    have hclasses : s₁.store.classes = k := by rw [hstore₁]; exact hs
    change (saveBatches model (groupByType os) >>= _) _ = _ at h
    rcases hbatches : saveBatches model (groupByType os) s₁ with ⟨⟨os', r₂⟩, s₂⟩
    obtain ⟨-, -, -, -, -, -, -, -, -, hstore₂⟩ := saveBatches_spec hk hclasses hbatches
    rw [bind_eq hbatches] at h
    cases h
    have hbegun : s'.store.begun = some db := by rw [hstore₂, hstore₁]; exact hopen
    exact ⟨.inl hbegun, fun _ => hbegun⟩

/-! ## Imports -/

/-- In `s'` there is a new model with a name and one object for each of the entries, and of all else
the same is told as in `s`. -/
structure Adds (s : Service) (model : Int) (name : String) (es : List Entry) (s' : Service) :
    Prop where
  /-- The id has never been given before. -/
  fresh : s.store.db.lastModel < model ∧ s.store.modelExists model = false
  models : ∀ n, s'.store.modelExists n = true ↔ n = model ∨ s.store.modelExists n = true
  name : s'.store.modelName? model = some (some name)
  read : ∃ g s₁, Service.read model false s' = (.ok g, s₁) ∧
    (g.objects.map Object.key).Perm (es.map Entry.key)
  others : ∀ n, n ≠ model → Untouched s s' n

/-- Only the store counts. -/
theorem Adds.congr {model : Int} {name : String} {es : List Entry} {s'' : Service}
    (h : s.Adds model name es s') (hk : k.Storable) (h' : s'.store.Sound k)
    (hstore : s''.store = s'.store) : s.Adds model name es s'' := by
  have h'' : s''.store.Sound k := hstore ▸ h'
  have hsame := untouched_of_db_eq h' h'' hk (congrArg Store.db hstore)
  obtain ⟨g, s₁, hread, hkeys⟩ := h.read
  have hread' : (Service.read model false s'').1 = .ok g := by
    rw [(hsame model).read false, hread]
  exact ⟨h.fresh, hstore ▸ h.models, hstore ▸ h.name, ⟨g, _, Prod.ext hread' rfl, hkeys⟩,
    fun n hne => (h.others n hne).trans (hsame n)⟩

/-- **New objects in a new model**: they are all that the model has, and other models keep
theirs. -/
theorem adds_of_storesAll (h : s.store.Sound k) (h' : s'.store.Sound k) (hk : k.Storable)
    {name : String} {es : List Entry} {os saved : List Object}
    (hall : Database.StoresAll k (s.store.db.lastModel + 1)
      (s.store.db.nameModel (s.store.db.lastModel + 1) (some name)) os saved s'.store.db)
    (hnew : ∀ o ∈ os, o.id = none) (hkeys : (os.map Object.key).Perm (es.map Entry.key)) :
    s.Adds (s.store.db.lastModel + 1) name es s' := by
  have hfresh : ∀ n, s.store.modelExists n = true → n ≤ s.store.db.lastModel := by
    intro n hn
    obtain ⟨name', hname⟩ := SortedMap.contains_iff.mp hn
    exact h.db.model_le hname
  have hmodels : s'.store.db.models =
      s.store.db.models.insert (s.store.db.lastModel + 1) (some name) := hall.models.1
  refine ⟨⟨by omega, ?_⟩, fun n => ?models, ?name, ?read, fun n hne => ?others⟩
  · by_contra hexists
    have := hfresh _ (by simpa using hexists)
    omega
  case models =>
    rw [Store.modelExists, hmodels, SortedMap.contains_insert, eq_comm]
    rfl
  case name =>
    rw [Store.modelName?, hmodels, SortedMap.get?_insert_self]
  case read =>
    obtain ⟨s₁, hread, -⟩ := read_unlinked h' hk (modelExists_insert hmodels (.inl rfl))
    have hperm := hall.perm_contents hk h'.db hnew (fun hst => h.db.object_le hst)
      fun {id st} hst hmodel => by
        obtain ⟨name', hname⟩ := h.db.owner hst
        have := h.db.model_le hname
        omega
    have hsaved : (saved.map (·.loaded (s.store.db.lastModel + 1))).map Object.key =
        os.map Object.key := by
      rw [List.map_map]
      refine map_eq_map_of_forall₂ (hall.savedAs.imp ?_)
      rintro o _ ⟨id, rfl, -⟩
      rfl
    refine ⟨_, s₁, hread, ?_⟩
    rw [objects_unlinked]
    exact (hsaved ▸ hperm.map Object.key).trans hkeys
  case others =>
    refine .of_contents h h' hk ?_ (h.db.contents_eq h'.db hk fun id x hx => ?_)
    · rw [Store.modelName?, hmodels, SortedMap.get?_insert, if_neg hne.symm]
      rfl
    · by_cases hid : some id ∈ saved.map (·.id)
      · -- What is stored under the id is new, and belongs to the new model.
        refine iff_of_false (fun hobj => ?_) fun hobj => ?_
        · obtain ⟨st, hst, hmodel⟩ := hall.exists_model hid
          obtain ⟨st', hst', -, -, -, hmodel'⟩ := Database.object?_some hk hobj
          rw [hst, Option.some.injEq] at hst'
          exact hne (Option.some.inj (hx.symm.trans (hmodel'.trans (hst' ▸ congrArg some hmodel))))
        · obtain ⟨st, hst, -⟩ := Database.object?_some hk hobj
          have hle := h.db.object_le hst
          rw [(hall.ids_of_new hnew).1, List.mem_map_of_injective (Option.some_injective _)] at hid
          have := (mem_nextIds.mp hid).1
          exact absurd hle (by simpa using this)
      · have hsame := hall.get?_of_not_mem fun o ho hoid =>
          hid (List.mem_map.mpr ⟨o, ho, hoid⟩)
        rw [Database.object?_congr (hsame.trans rfl)]
        exact .rfl

variable {name payload : String} {objects : SortedMap String Object}

/-- A payload that cannot be read makes no call. -/
theorem savePayload_unread {known : Catalog} {m : Model} {e : Error}
    (hread : readObjects known payload = .error e) :
    savePayload known m payload s = ((m, .error e), s) := by
  rw [savePayload, hread]
  rfl

/-- Objects that are saved in a transaction are imported. -/
theorem importModel_saved (h : s.store.Sound .standard) (hs : s.store.begun = none)
    (hread : readObjects .standard payload = .ok objects) {m : Model} {saved : List Object}
    (hsave : saveObjects (.named name) objects.values s.inTransaction = ((m, .ok saved), s₁)) :
    ∃ s', importModel name payload s = (.ok ⟨m, saved⟩, s') ∧
      s'.store = { s₁.store with begun := none } := by
  obtain ⟨n, -, rfl, -⟩ := saveObjects_ok Catalog.standard_storable (by exact h.classes) hsave
  obtain ⟨s₂, hpayload, hstore₂⟩ := savePayload_eq hread hsave rfl
  have hopen := (canUndo_saveObjects Catalog.standard_storable (by exact h.classes) rfl hsave).2 rfl
  refine ⟨s₂.outOfTransaction s₂.store.db, transact_ok hs ?_ ?_, ?_⟩
  · rw [bind_eq hpayload]
    rfl
  · rw [hstore₂, hopen]
    exact Option.some_ne_none _
  · rw [outOfTransaction, hstore₂]

/-- A payload that is not saved in a transaction is not imported. -/
theorem importModel_unsaved (hs : s.store.begun = none) {m : Model} {e : Error}
    (hsave : savePayload .standard (.named name) payload s.inTransaction = ((m, .error e), s₁))
    (hundo : s₁.store.CanUndo s.store.db) :
    ∃ e' s', importModel name payload s = (.error e', s') ∧ s'.store.begun = none ∧
      s'.store.db = s.store.db := by
  have himport : ∃ e', importModel name payload s =
      (.error e', s₁.outOfTransaction s.store.db) := by
    unfold importModel
    refine transact_error (e := e) hs ?_ hundo
    rw [bind_eq hsave]
    rfl
  obtain ⟨e', himport⟩ := himport
  exact ⟨e', _, himport, rfl, rfl⟩

/-- **An import adds a model or changes nothing.** -/
theorem importModel_cases (h : s.store.Sound .standard) (hs : s.store.begun = none)
    (name payload : String) :
    (∃ es m saved s', Entry.readAll payload = .ok es ∧
      importModel name payload s = (.ok ⟨m, saved⟩, s') ∧
      m.id = some (s.store.db.lastModel + 1) ∧ s'.store.Sound .standard ∧ s'.store.begun = none ∧
      s.Adds (s.store.db.lastModel + 1) name es s') ∨
    ∃ e s', importModel name payload s = (.error e, s') ∧ s'.store.begun = none ∧
      s'.store.db = s.store.db := by
  have hk := Catalog.standard_storable
  cases hread : readObjects .standard payload with
  | error e =>
    exact .inr (importModel_unsaved hs (savePayload_unread hread) (.inl rfl))
  | ok objects =>
    rcases hsave : saveObjects (.named name) objects.values s.inTransaction with ⟨⟨m, r⟩, s₁⟩
    cases r with
    | error e =>
      have hpayload : savePayload .standard (.named name) payload s.inTransaction =
          ((m, .error e), s₁) := by
        rw [savePayload, hread]
        show (saveObjects _ _ >>= _) _ = _
        rw [bind_eq hsave]
        rfl
      exact .inr (importModel_unsaved hs hpayload
        (canUndo_saveObjects hk (by exact h.classes) rfl hsave).1)
    | ok saved =>
      obtain ⟨es, hes, hkeys⟩ := perm_readObjects hk.name_eq hread
      obtain ⟨hentered, -⟩ := readObjects_spec hk.name_eq hread
      obtain ⟨s', himport, hstore'⟩ := importModel_saved h hs hread hsave
      obtain ⟨n, ps, rfl, hn, hps, hall, -⟩ := saveObjects_ok hk (by exact h.classes) hsave
      obtain ⟨-, rfl⟩ : _ ∧ n = s.store.db.lastModel + 1 := by
        rcases hn with hn | hn
        · exact nomatch hn
        · exact hn
      have h' : s'.store.Sound .standard := by
        have h₁ := Keeps.saveObjects (Store.invariant_sound hk) (.named name) objects.values
          s.inTransaction (inTransaction_sound h)
        rw [hsave] at h₁
        rw [hstore']
        exact ⟨h₁.classes, h₁.db, fun _ hdb => nomatch hdb⟩
      refine .inl ⟨es, _, saved, s', hes, himport, rfl, h', by rw [hstore'],
        adds_of_storesAll h h' hk (by rw [hstore']; exact hall) ?_ ?_⟩
      · exact List.forall_mem_map.mpr fun o ho => (hentered o (hps.mem_iff.mp ho)).1.new
      · rw [List.map_map]
        exact (hps.map Object.key).trans hkeys

/-- **As long as there are ids left, what can be read is imported**, and nothing else. -/
theorem importModel_ok_iff (h : s.store.Sound .standard) (hs : s.store.begun = none)
    (hroom : ∀ objects, readObjects .standard payload = .ok objects → s.HasRoom objects.size) :
    (∃ imported s', importModel name payload s = (.ok imported, s')) ↔
      ∃ objects, readObjects .standard payload = .ok objects := by
  have hk := Catalog.standard_storable
  constructor
  · rintro ⟨imported, s', himport⟩
    cases hread : readObjects .standard payload with
    | ok objects => exact ⟨objects, rfl⟩
    | error e =>
      obtain ⟨e', s'', herror, -⟩ := importModel_unsaved hs (savePayload_unread hread) (.inl rfl)
      exact nomatch himport.symm.trans herror
  · rintro ⟨objects, hread⟩
    obtain ⟨hentered, hkeys⟩ := readObjects_spec hk.name_eq hread
    have hroom := hroom objects hread
    rw [← show objects.values.length = objects.size from List.length_map ..] at hroom
    obtain ⟨saved, s₁, hsave, -⟩ := saveObjects_new hk (inTransaction_sound h)
      (m := .named name) rfl ⟨hroom.model, hroom.objects⟩
      (fun o ho => ⟨(hentered o ho).1.new, (hentered o ho).1.known⟩)
      (hkeys ▸ objects.keys_nodup)
    obtain ⟨s', himport, -⟩ := importModel_saved h hs hread hsave
    exact ⟨_, s', himport⟩

end Service

end CimStore

import CimStore.Proofs.History
import CimStore.Proofs.Orphans
import CimStore.Proofs.Overwriting
import CimStore.Store.Listing

/-!
# Saving again what has been rolled back

A rollback takes back the rows and the ids that were given, but a model and objects that were saved
keep the ids that they got. What is saved next gets the same ids, and if the first ones are then
saved again, they go over it.

* `Save` is a model with its collection or a list of objects, to be saved once or again;
* `Database.Gives`: what saving new models and new objects adds, by the number of them;
* `Service.Reachable.save_again`: when a rolled-back save is repeated, which of its ids are taken,
  what becomes of what is stored under them, and that all else stays (`Service.SavedAgain`).
-/

namespace CimStore

/-! ## New objects -/

/-- The ids that come after one. -/
def nextIds (last : Int) : Nat → List Int
  | 0 => []
  | n + 1 => (last + 1) :: nextIds (last + 1) n

theorem mem_nextIds {last id : Int} {n : Nat} :
    id ∈ nextIds last n ↔ last < id ∧ id ≤ last + n := by
  induction n generalizing last with
  | zero =>
    rw [nextIds]
    refine iff_of_false List.not_mem_nil ?_
    omega
  | succ n ih =>
    rw [nextIds, List.mem_cons, ih]
    omega

theorem nodup_nextIds (last : Int) (n : Nat) : (nextIds last n).Nodup := by
  induction n generalizing last with
  | zero => exact List.nodup_nil
  | succ n ih =>
    refine List.nodup_cons.mpr ⟨fun hmem => ?_, ih _⟩
    have := (mem_nextIds.mp hmem).1
    omega

namespace Database.StoresAll

variable {k : Catalog} {model : Int} {db db' : Database} {os os' : List Object}

/-- New objects get the next ids, in order. -/
theorem ids_of_new (h : StoresAll k model db os os' db') (hnew : ∀ o ∈ os, o.id = none) :
    os'.map (·.id) = (nextIds db.lastObject os.length).map some ∧
      db'.lastObject = db.lastObject + os.length := by
  induction h with
  | nil => exact ⟨rfl, by simp⟩
  | @cons db db₁ _ o os os' _ hs _ _ ih =>
    obtain ⟨hnone, htail⟩ := List.forall_mem_cons.mp hnew
    obtain ⟨hids, hlast⟩ := ih htail
    rcases hs.id_eq with hid | ⟨-, rfl⟩
    · exact nomatch hnone.symm.trans hid
    have hnext : db₁.lastObject = db.lastObject + 1 := by
      rw [hs.lastObject]
      omega
    rw [hnext] at hids hlast
    refine ⟨congrArg (some (db.lastObject + 1) :: ·) hids, ?_⟩
    rw [hlast, List.length_cons]
    omega

/-- Under the ids of saved objects there is something, and else just what was there. -/
theorem contains_iff (h : StoresAll k model db os os' db') (id : Int) :
    db'.objects.contains id = true ↔
      db.objects.contains id = true ∨ some id ∈ os'.map (·.id) := by
  by_cases hmem : some id ∈ os'.map (·.id)
  · obtain ⟨st, hst, -⟩ := h.exists_model hmem
    exact iff_of_true (SortedMap.contains_iff.mpr ⟨st, hst⟩) (.inr hmem)
  · have hsame := h.get?_of_not_mem fun o ho heq => hmem (List.mem_map.mpr ⟨o, ho, heq⟩)
    simp only [SortedMap.contains_iff, hsame, hmem, or_false]

/-- Objects of the model that have ids come back as they are. -/
theorem eq_self (h : StoresAll k model db os os' db') (hids : ∀ o ∈ os, o.id ≠ none) : os' = os := by
  induction h with
  | nil => rfl
  | cons hs _ _ ih =>
    obtain ⟨hsome, htail⟩ := List.forall_mem_cons.mp hids
    rcases hs.id_eq with hid | ⟨hnone, -⟩
    · rw [ih htail, ← hid]
    · exact absurd hnone hsome

end Database.StoresAll

/-! ## What is given -/

/-- `db'` has as many more models and objects than `db`, under the ids that come next. -/
structure Database.Gives (db : Database) (models objects : Nat) (db' : Database) : Prop where
  lastModel : db'.lastModel = db.lastModel + models
  lastObject : db'.lastObject = db.lastObject + objects
  models : ∀ n, db'.models.contains n = true ↔
    db.models.contains n = true ∨ db.lastModel < n ∧ n ≤ db.lastModel + models
  objects : ∀ id, db'.objects.contains id = true ↔
    db.objects.contains id = true ∨ db.lastObject < id ∧ id ≤ db.lastObject + objects

namespace Database.Gives

theorem refl (db : Database) : db.Gives 0 0 db where
  lastModel := by simp
  lastObject := by simp
  models n := by
    have : ¬(db.lastModel < n ∧ n ≤ db.lastModel + (0 : Nat)) := by omega
    simp only [this, or_false]
  objects id := by
    have : ¬(db.lastObject < id ∧ id ≤ db.lastObject + (0 : Nat)) := by omega
    simp only [this, or_false]

theorem trans {a b c : Database} {m m' n n' : Nat} (h : a.Gives m n b) (h' : b.Gives m' n' c) :
    a.Gives (m + m') (n + n') c where
  lastModel := by
    rw [h'.lastModel, h.lastModel]
    omega
  lastObject := by
    rw [h'.lastObject, h.lastObject]
    omega
  models i := by
    rw [h'.models, h.models, h.lastModel, or_assoc]
    refine or_congr_right ?_
    omega
  objects i := by
    rw [h'.objects, h.objects, h.lastObject, or_assoc]
    refine or_congr_right ?_
    omega

/-- A stored model that is saved is given no id. -/
theorem nameModel {db : Database} {model : Int} (h : db.models.contains model = true)
    (hle : model ≤ db.lastModel) (name : Option String) : db.Gives 0 0 (db.nameModel model name) where
  lastModel := by
    rw [lastModel_nameModel]
    omega
  lastObject := by simp
  models n := by
    rw [models_nameModel, SortedMap.contains_insert]
    constructor
    · rintro (rfl | hn)
      · exact .inl h
      · exact .inl hn
    · rintro (hn | hn)
      · exact .inr hn
      · omega
  objects := (refl db).objects

/-- A new model is given the next. -/
theorem nameModel_new (db : Database) (name : Option String) :
    db.Gives 1 0 (db.nameModel (db.lastModel + 1) name) where
  lastModel := by
    rw [lastModel_nameModel]
    omega
  lastObject := by simp
  models n := by
    rw [models_nameModel, SortedMap.contains_insert, or_comm]
    refine or_congr_right ?_
    omega
  objects := (refl db).objects

/-- So is each of the new objects. -/
theorem storesAll {k : Catalog} {model : Int} {db db' : Database} {os os' : List Object}
    (h : StoresAll k model db os os' db') (hnew : ∀ o ∈ os, o.id = none) :
    db.Gives 0 os.length db' := by
  obtain ⟨hids, hlast⟩ := h.ids_of_new hnew
  refine ⟨by rw [h.models.2]; simp, hlast, fun n => ?_, fun id => ?_⟩
  · rw [h.models.1]
    exact (refl db).models n
  · rw [h.contains_iff, hids, List.mem_map_of_injective (Option.some_injective _), mem_nextIds]

end Database.Gives

/-! ## Saves -/

/-- Something to be saved. -/
inductive Save
  /-- A model with its collection. -/
  | model (m : Model)
  /-- Objects, into a model. -/
  | objects (m : Model) (os : List Object)
deriving DecidableEq

namespace Save

def target : Save → Model
  | model m => m
  | objects m _ => m

def contents : Save → List Object
  | model m => m.objects
  | objects _ os => os

/-- The objects that are deleted after the contents have been saved. -/
def queue : Save → List Orphan
  | model m => m.orphans
  | objects _ _ => []

/-- Saves. The same is handed back with the ids that it has got. -/
def run (c : Save) (s : Service) : Except Error Save × Service :=
  match c with
  | model m =>
    let ((m, result), s) := Service.saveModel m s
    (result.map fun _ => .model m, s)
  | objects m os =>
    let ((m, result), s) := Service.saveObjects m os s
    (result.map (.objects m), s)

/-- None of the objects has been saved before. -/
structure IsNew (c : Save) : Prop where
  ids : ∀ o ∈ c.contents, o.id = none
  queue : c.queue = []

/-- The number of models among the saves that have no id. -/
def newModels (cs : List Save) : Nat := cs.countP (·.target.id.isNone)

/-- The number of objects in the saves. -/
def newObjects (cs : List Save) : Nat := (cs.map (·.contents.length)).sum

variable {k : Catalog} {c c' : Save} {s s' : Service} {r : Except Error Save}

theorem reachable_run (hs : s.Reachable k) (h : c.run s = (r, s')) : s'.Reachable k := by
  cases c with
  | model m =>
    cases h
    exact hs.perform (.saveModel m)
  | objects m os =>
    cases h
    exact hs.perform (.saveObjects m os)

/-- **What a save does** if nothing is to be deleted: the model is stored, then the objects up to
the first that cannot be saved. -/
theorem run_spec (hk : k.Storable) (hs : s.store.classes = k) (hqueue : c.queue = [])
    (h : c.run s = (r, s')) :
    (∃ e, r = .error e) ∧ c.target.id = none ∨
    ∃ (model : Int) (pre pre' post : List Object),
      (c.target.id = some model ∨ c.target.id = none ∧ model = s.store.db.lastModel + 1) ∧
      (pre ++ post).Perm (c.contents.map (·.giveTo model)) ∧
      Database.StoresAll k model (s.store.db.nameModel model c.target.name) pre pre' s'.store.db ∧
      s'.store = { s.store with db := s'.store.db } ∧
      ((∃ e, r = .error e) ∨ ∃ c', r = .ok c' ∧ post = [] ∧ c'.target.id = some model ∧
        c'.target.name = c.target.name ∧ c'.contents = pre' ∧ c'.queue = []) := by
  cases c with
  | model m =>
    rcases hsave : Service.saveModel m s with ⟨⟨m', r'⟩, s₁⟩
    simp only [run, hsave] at h
    cases h
    rcases Service.saveModel_spec hk hs hsave with ⟨e, rfl, rfl, hid⟩ | ⟨model, pre, pre', post,
      post', db, done, rest, hid, hid', hname, hperm, hobjects, hpost, hall, hdone, hstore, hr⟩
    · exact .inl ⟨⟨e, rfl⟩, hid⟩
    · have hnone : done = [] := by
        have horphans : (Service.orphansByType m.orphans).entries = [] := by
          rw [show m.orphans = [] from hqueue]
          rfl
        rw [horphans] at hdone
        exact (List.append_eq_nil_iff.mp hdone.symm).1
      rw [hnone] at hstore
      have hdb : s'.store.db = db := congrArg Store.db hstore
      have hgiven : ((pre ++ post).map (·.giveTo model)).Perm (m.objects.map (·.giveTo model)) := by
        have := hperm.map (·.giveTo model)
        rwa [Service.map_giveTo_giveTo] at this
      rw [List.map_append] at hgiven
      refine .inr ⟨model, _, pre', _, hid, hgiven, hdb ▸ hall, hdb ▸ hstore, ?_⟩
      rcases hr with ⟨⟨e, rfl⟩, -⟩ | ⟨rfl, rfl, -, hnew⟩
      · exact .inl ⟨e, rfl⟩
      · obtain rfl : post' = [] := by simpa using hpost
        exact .inr ⟨_, rfl, rfl, hid', hname, hobjects.trans (List.append_nil _), hnew⟩
  | objects m os =>
    rcases hsave : Service.saveObjects m os s with ⟨⟨m', r'⟩, s₁⟩
    simp only [run, hsave] at h
    cases h
    rcases Service.saveObjects_spec hk hs hsave with ⟨e, rfl, rfl, hid⟩ | ⟨model, pre, pre', post,
      hid, rfl, hperm, hall, hstore, hr⟩
    · exact .inl ⟨⟨e, rfl⟩, hid⟩
    · have hgiven := hperm.map (·.giveTo model)
      rw [List.map_append] at hgiven
      refine .inr ⟨model, _, pre', _, hid, hgiven, hall, hstore, ?_⟩
      rcases hr with ⟨e, rfl⟩ | ⟨rfl, rfl⟩
      · exact .inl ⟨e, rfl⟩
      · exact .inr ⟨_, rfl, rfl, rfl, rfl, rfl, rfl⟩

/-- A new save that succeeds stores all of its objects, as new ones. -/
theorem run_new (hk : k.Storable) (hs : s.store.classes = k) (hnew : c.IsNew)
    (h : c.run s = (.ok c', s')) :
    ∃ (model : Int) (os : List Object),
      (c.target.id = some model ∨ c.target.id = none ∧ model = s.store.db.lastModel + 1) ∧
      os.length = c.contents.length ∧ (∀ o ∈ os, o.id = none) ∧
      Database.StoresAll k model (s.store.db.nameModel model c.target.name) os c'.contents s'.store.db ∧
      c'.target.id = some model ∧ c'.target.name = c.target.name ∧ c'.queue = [] := by
  rcases run_spec hk hs hnew.queue h with ⟨⟨e, hr⟩, -⟩ | ⟨model, pre, pre', post, hid, hperm, hall, -,
    ⟨e, hr⟩ | ⟨c'', hr, rfl, hid', hname, rfl, hqueue⟩⟩
  · exact nomatch hr
  · exact nomatch hr
  cases hr
  rw [List.append_nil] at hperm
  refine ⟨model, pre, hid, by rw [hperm.length_eq, List.length_map], fun o ho => ?_, hall, hid', hname,
    hqueue⟩
  obtain ⟨a, ha, rfl⟩ := List.mem_map.mp (hperm.mem_iff.mp ho)
  exact hnew.ids a ha

/-- It gives the next ids to the objects, and to the model if that has none. -/
theorem run_gives (hk : k.Storable) (hs : s.store.Sound k) (hnew : c.IsNew)
    (hmodel : ∀ id, c.target.id = some id → s.store.modelExists id = true)
    (h : c.run s = (.ok c', s')) :
    s.store.db.Gives (newModels [c]) (newObjects [c]) s'.store.db := by
  obtain ⟨model, os, hid, hlength, hnone, hall, -⟩ := run_new hk hs.classes hnew h
  have hobjects : newObjects [c] = 0 + os.length := by simp [newObjects, hlength]
  rw [hobjects]
  rcases hid with hid | ⟨hid, rfl⟩
  · have hmodels : newModels [c] = 0 + 0 := by simp [newModels, hid]
    obtain ⟨name, hname⟩ := SortedMap.contains_iff.mp (hmodel model hid)
    rw [hmodels]
    exact (Database.Gives.nameModel (hmodel model hid) (hs.db.model_le hname) _).trans
      (.storesAll hall hnone)
  · have hmodels : newModels [c] = 1 + 0 := by simp [newModels, hid]
    rw [hmodels]
    exact (Database.Gives.nameModel_new ..).trans (.storesAll hall hnone)

/-- A save that is repeated stores its objects as they are, up to the first that cannot be saved. -/
theorem run_again (hk : k.Storable) (hs : s.store.classes = k) {model : Int}
    (hid : c.target.id = some model) (hids : ∀ o ∈ c.contents, o.id ≠ none)
    (hmodel : ∀ o ∈ c.contents, o.model = some model) (hqueue : c.queue = [])
    (h : c.run s = (r, s')) :
    ∃ done rest, (done ++ rest).Perm c.contents ∧
      Database.StoresAll k model (s.store.db.nameModel model c.target.name) done done s'.store.db ∧
      ∀ c', r = .ok c' → rest = [] := by
  rcases run_spec hk hs hqueue h with ⟨-, hnone⟩ | ⟨model', pre, pre', post, hid', hperm, hall, -, hr⟩
  · exact nomatch hid.symm.trans hnone
  obtain rfl : model = model' := by
    rcases hid' with hid' | ⟨hnone, -⟩
    · exact Option.some.inj (hid.symm.trans hid')
    · exact nomatch hid.symm.trans hnone
  have hgiven : c.contents.map (·.giveTo model) = c.contents := by
    refine (List.map_congr_left fun o ho => ?_).trans (List.map_id _)
    show { o with model := some model } = o
    rw [← hmodel o ho]
  rw [hgiven] at hperm
  obtain rfl : pre' = pre := hall.eq_self fun o ho =>
    hids o (hperm.mem_iff.mp (List.mem_append_left _ ho))
  refine ⟨pre', post, hperm, hall, fun c' hc' => ?_⟩
  rcases hr with ⟨e, rfl⟩ | ⟨-, -, hpost, -⟩
  · exact nomatch hc'
  · exact hpost

/-- Saves of new models, and of new objects into new or stored models, all of them successful. -/
inductive Runs : Service → List Save → Service → Prop
  | nil {s : Service} : Runs s [] s
  | cons {s s₁ s' : Service} {c c' : Save} {cs : List Save} : c.IsNew →
      (∀ id, c.target.id = some id → s.store.modelExists id = true) → c.run s = (.ok c', s₁) →
      Runs s₁ cs s' → Runs s (c :: cs) s'

theorem Runs.reachable {cs : List Save} (h : Runs s cs s') (hs : s.Reachable k) :
    s'.Reachable k := by
  induction h with
  | nil => exact hs
  | cons _ _ hrun _ ih => exact ih (reachable_run hs hrun)

/-- **New saves give the next ids**, as many as there are new models and objects. -/
theorem Runs.gives (hk : k.Storable) {cs : List Save} (h : Runs s cs s') (hs : s.Reachable k) :
    s.store.db.Gives (newModels cs) (newObjects cs) s'.store.db := by
  induction h with
  | nil => exact .refl _
  | @cons s _ _ c _ cs hnew hmodel hrun _ ih =>
    have hmodels : newModels (c :: cs) = newModels [c] + newModels cs := by
      simp [newModels, List.countP_cons, Nat.add_comm]
    have hobjects : newObjects (c :: cs) = newObjects [c] + newObjects cs := by simp [newObjects]
    rw [hmodels, hobjects]
    exact (run_gives hk (hs.sound hk) hnew hmodel hrun).trans (ih (reachable_run hs hrun))

end Save

/-! ## Once more after a rollback -/

namespace Service

variable {k : Catalog} {s s₁ s₂ s' : Service}

theorem perform_rollBack {db : Database} (h : s.store.begun = some db) :
    (Op.rollBack.perform s).store = { s.store with db, begun := none } := by
  show (tryStore Store.rollBack s).2.store = _
  simp only [tryStore, Store.rollBack, h]

/-- **What a repeated save does**, whether it succeeds or not: the model gets the name, and nothing
is changed under other ids than those of its objects. If it succeeds, what was under these ids is
overwritten. -/
theorem run_again_finds (hk : k.Storable) (hs : s.Reachable k) {c : Save} {model : Int}
    (hid : c.target.id = some model) (hids : (c.contents.map (·.id)).Nodup)
    (hkept : ∀ o ∈ c.contents, o.model = some model ∧ o.id ≠ none) (hqueue : c.queue = [])
    {r : Except Error Save} (hrun : c.run s = (r, s')) :
    (∀ n, s'.store.modelName? n =
        if model = n then some c.target.name else s.store.modelName? n) ∧
      (∀ n id x, some id ∉ c.contents.map (·.id) → (s'.Finds n id x ↔ s.Finds n id x)) ∧
      ∀ c', r = .ok c' → ∀ o ∈ c.contents, ∃ id x, o.id = some id ∧ s'.Finds model id x ∧
        s.Overwrites model id o x := by
  have h := hs.sound hk
  have h' := (Save.reachable_run hs hrun).sound hk
  obtain ⟨done, rest, hperm, hall, hrest⟩ := Save.run_again hk h.classes hid
    (fun o ho => (hkept o ho).2) (fun o ho => (hkept o ho).1) hqueue hrun
  refine ⟨fun n => ?_, fun n id x hnot => ?_, fun c' hok o ho => ?_⟩
  · unfold Store.modelName?
    rw [hall.models.1, Database.models_nameModel, SortedMap.get?_insert]
  · have hsame := hall.get?_of_not_mem fun o ho heq =>
      hnot (List.mem_map.mpr ⟨o, hperm.mem_iff.mp (List.mem_append_left _ ho), heq⟩)
    rw [finds_iff h' hk, finds_iff h hk, Database.object?_congr hsame]
    rfl
  · obtain rfl := hrest c' hok
    rw [List.append_nil] at hperm
    have hnodup : (done.map (·.id)).Nodup := (hperm.map _).nodup_iff.mpr hids
    obtain ⟨id, n, x, hoid, hon, hfound, hover⟩ :=
      finds_overwrites h h' hk hall.each rfl hnodup (hperm.mem_iff.mpr ho)
    obtain rfl : model = n := Option.some.inj ((hkept o ho).1.symm.trans hon)
    exact ⟨id, x, hoid, hfound, hover⟩

/-- What there is to say when `c`, first saved by `s` in a transaction that began at `start`, has come
back as `c'` and is saved again after the saves `cs`, from `s₂` to `s'` with the result `r`. -/
structure SavedAgain (start : Database) (s : Service) (c c' : Save) (cs : List Save)
    (s₂ s' : Service) (r : Except Error Save) (model : Int) : Prop where
  /-- The model has kept the id with which it came or that it was given. -/
  target : c'.target.id = some model ∧
    (c.target.id = some model ∨ c.target.id = none ∧ model = s.store.db.lastModel + 1)
  /-- So have the objects; these were the next ids when they were saved first. -/
  ids : c'.contents.map (·.id) = (nextIds s.store.db.lastObject c.contents.length).map some
  /-- By then no fewer ids had been given than when the transaction began. -/
  earlier : start.Earlier s.store.db
  /-- The id of the model is taken if it was when the transaction began, or if there are enough new
  models among the saves in between. -/
  model_taken : s₂.store.modelExists model = true ↔ start.models.contains model = true ∨
    start.lastModel < model ∧ model ≤ start.lastModel + Save.newModels cs
  /-- The id of an object is taken if there are enough new objects among them. -/
  object_taken : ∀ id, some id ∈ c'.contents.map (·.id) →
    (s₂.store.db.objects.contains id = true ↔ id ≤ start.lastObject + Save.newObjects cs)
  /-- Whether the save succeeds or not, the model under the id gets the name, and no other. -/
  name : ∀ n, s'.store.modelName? n =
    if model = n then some c.target.name else s₂.store.modelName? n
  /-- Under other ids the same objects are found. -/
  frame : ∀ n id x, some id ∉ c'.contents.map (·.id) → (s'.Finds n id x ↔ s₂.Finds n id x)
  /-- If the save succeeds, what was under these ids is overwritten. -/
  overwritten : ∀ c'', r = .ok c'' → ∀ o ∈ c'.contents, ∃ id x, o.id = some id ∧
    s'.Finds model id x ∧ s₂.Overwrites model id o x
  /-- If there are not enough new models among the saves in between, every model keeps its name. -/
  models_kept : start.lastModel + Save.newModels cs < model → ∀ n name,
    s₂.store.modelName? n = some name → s'.store.modelName? n = some name
  /-- If there are not enough new objects, every object is found as before. -/
  objects_kept : start.lastObject + Save.newObjects cs ≤ s.store.db.lastObject → ∀ n id x,
    s₂.Finds n id x → s'.Finds n id x

/-- **Saving again what was rolled back.** In a transaction that began at `start`, new objects are
saved into a model, which may be new too; later the transaction is rolled back. Then other new
models and objects are saved, and at last the first save is repeated. It has kept its ids. If they
have been given again in the meantime, it goes over the model and the objects that have them now;
nothing else is changed. -/
theorem Reachable.save_again (hk : k.Storable) (hs : Reachable k s) {start : Database}
    (hbegun : s.store.begun = some start) {c c' : Save} (hnew : c.IsNew)
    (hsave : c.run s = (.ok c', s₁)) {ops : List Op}
    (hopen : (s₁.perform ops).store.begun = some start) {cs : List Save}
    (hbetween : Save.Runs (Op.rollBack.perform (s₁.perform ops)) cs s₂) {r : Except Error Save}
    (hagain : c'.run s₂ = (r, s')) :
    ∃ model, SavedAgain start s c c' cs s₂ s' r model := by
  obtain ⟨model, os, hid, hlength, hnone, hall, hid', hname, hqueue⟩ :=
    Save.run_new hk (hs.sound hk).classes hnew hsave
  obtain ⟨hids, -⟩ := hall.ids_of_new hnone
  rw [hlength] at hids
  have hlater : ∀ id, some id ∈ c'.contents.map (·.id) → s.store.db.lastObject < id := by
    intro id hmem
    rw [hids, List.mem_map_of_injective (Option.some_injective _)] at hmem
    exact (mem_nextIds.mp hmem).1
  -- The rollback goes back to where the transaction began, and what is saved then gets ids from there.
  have hearlier := hs.begun_earlier hbegun
  have hback : (Op.rollBack.perform (s₁.perform ops)).Reachable k :=
    ((Save.reachable_run hs hsave).performs ops).perform .rollBack
  have hdb : (Op.rollBack.perform (s₁.perform ops)).store.db = start :=
    congrArg Store.db (perform_rollBack hopen)
  have hstart : start.Sound k := hdb ▸ (hback.sound hk).db
  have hgives := hdb ▸ hbetween.gives hk hback
  have hreach := hbetween.reachable hback
  obtain ⟨hmodels, hframe, hover⟩ := run_again_finds hk hreach hid'
    (hids ▸ (nodup_nextIds ..).map (Option.some_injective _))
    (fun o ho => by
      obtain ⟨a, -, id, rfl, -⟩ := hall.exists_savedAs ho
      exact ⟨rfl, nofun⟩) hqueue hagain
  have htaken : ∀ id, some id ∈ c'.contents.map (·.id) →
      (s₂.store.db.objects.contains id = true ↔ id ≤ start.lastObject + Save.newObjects cs) := by
    intro id hmem
    have hlt := hlater id hmem
    have hle := hearlier.lastObject
    rw [hgives.objects]
    constructor
    · rintro (hold | ⟨-, hnew⟩)
      · obtain ⟨st, hst⟩ := SortedMap.contains_iff.mp hold
        have := hstart.object_le hst
        omega
      · exact hnew
    · exact fun hnew => .inr ⟨by omega, hnew⟩
  refine ⟨model, ⟨hid', hid⟩, hids, hearlier, hgives.models model, htaken, hname ▸ hmodels, hframe,
    hover, fun hfree n name hn => ?_, fun hfree n id x hfound => ?_⟩
  · rw [hmodels, if_neg, hn]
    rintro rfl
    rcases (hgives.models model).mp (SortedMap.contains_iff.mpr ⟨name, hn⟩) with hold | ⟨-, hnew⟩
    · obtain ⟨old, hold⟩ := SortedMap.contains_iff.mp hold
      have := hstart.model_le hold
      omega
    · omega
  · refine (hframe n id x fun hmem => ?_).mpr hfound
    obtain ⟨st, hst, -⟩ := Database.object?_some hk ((finds_iff (hreach.sound hk) hk).mp hfound).1
    have hle := (htaken id hmem).mp (SortedMap.contains_iff.mpr ⟨st, hst⟩)
    have hlt := hlater id hmem
    omega

end Service

namespace SmallGrid

/-- A store with an open transaction. -/
def begun : Service := Op.begin.perform (.opened .standard)

/-- A busbar in a new model, before and after it has been saved. -/
def lost : Save := .objects (.named "lost") [busbar]

def lostAgain : Save := .objects { id := some 1, name := some "lost" } [storedBusbar]

/-- Another busbar in another model. -/
def between : Save := .objects (.named "other") [{ busbar with rdfid := "_c" }]

/-- The first save has been rolled back, and the other one has been made. -/
def overtaken : Service := (between.run (Op.rollBack.perform (lost.run begun).2)).2

end SmallGrid

namespace Service

/-- The other model has the id of the lost one. When that is saved again, its name is lost, and so
is the rdf:ID of its busbar. -/
theorem Reachable.save_again_overtaken :
    SmallGrid.overtaken.store.modelName? 1 = some (some "other") ∧
      (SmallGrid.lostAgain.run SmallGrid.overtaken).2.store.modelName? 1 = some (some "lost") ∧
      ∃ x, (SmallGrid.lostAgain.run SmallGrid.overtaken).2.Finds 1 1 x ∧ x.rdfid = "_b" := by
  have hsave : (SmallGrid.lost.run SmallGrid.begun).1 = .ok SmallGrid.lostAgain := by decide +kernel
  have hopen : ((SmallGrid.lost.run SmallGrid.begun).2.perform []).store.begun = some {} := by
    decide +kernel
  have hother : (SmallGrid.between.run
      (Op.rollBack.perform (SmallGrid.lost.run SmallGrid.begun).2)).1 =
        .ok (.objects { id := some 1, name := some "other" }
          [{ SmallGrid.storedBusbar with rdfid := "_c" }]) := by decide +kernel
  have hagain : (SmallGrid.lostAgain.run SmallGrid.overtaken).1 = .ok SmallGrid.lostAgain := by
    decide +kernel
  have hruns : Save.Runs (Op.rollBack.perform (SmallGrid.lost.run SmallGrid.begun).2)
      [SmallGrid.between] SmallGrid.overtaken :=
    .cons ⟨by decide +kernel, rfl⟩ nofun (Prod.ext hother rfl) .nil
  obtain ⟨model, hresult⟩ :=
    Reachable.save_again Catalog.standard_storable
      ((Reachable.opened .standard).perform .begin) (by decide +kernel)
      ⟨by decide +kernel, rfl⟩ (Prod.ext hsave rfl) hopen hruns (Prod.ext hagain rfl)
  obtain rfl : 1 = model := Option.some.inj hresult.target.1
  obtain ⟨id, x, hxid, hx, hover⟩ :=
    hresult.overwritten _ rfl SmallGrid.storedBusbar (List.mem_singleton_self _)
  obtain rfl : 1 = id := Option.some.inj hxid
  exact ⟨by decide +kernel, hresult.name 1, x, hx, hover.rdfid⟩

end Service

end CimStore

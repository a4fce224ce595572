import CimStore.Proofs.Reading

/-!
# Deleting objects by class and id

* `Database.mem_objectsOf_drop`: a deletion removes the entries of a class under the given ids, and
  no others;
* `Database.object?_drop`: whatever is stored under an id is loaded as before, or it was named and
  is gone;
* `Database.Shrinks`: what a deletion leaves was there before;
* `Database.dropAll`: several deletions. `Service.deleteAll` makes all of them, or those in front
  of the first that fails (`Service.deleteAll_cases`).
-/

namespace CimStore

namespace Database

variable {k : Catalog} {db db' db'' : Database}

/-- A deletion removes exactly the listed entries that it names. -/
theorem mem_objectsOf_drop {cimType t : String} {ids : List Int} {model id : Int} :
    (id, t) ∈ (db.drop cimType ids).objectsOf model ↔
      (id, t) ∈ db.objectsOf model ∧ ¬(cimType = t ∧ id ∈ ids) := by
  rw [mem_objectsOf, mem_objectsOf]
  constructor
  · rintro ⟨st, hst, hmodel, htype⟩
    obtain ⟨old, hold, -, htype', hmodel', -⟩ := get?_drop_some hst
    refine ⟨⟨old, hold, hmodel' ▸ hmodel, htype' ▸ htype⟩, ?_⟩
    rintro ⟨rfl, hid⟩
    rw [get?_drop, hold, Option.bind_some, if_neg (by simpa using hid),
      if_pos (htype'.symm.trans htype)] at hst
    exact nomatch hst
  · rintro ⟨⟨old, hold, hmodel, htype⟩, hnot⟩
    rw [get?_drop, hold, Option.bind_some]
    by_cases hid : id ∈ ids
    · have hne : old.cimType ≠ cimType := fun heq => hnot ⟨heq.symm.trans htype, hid⟩
      rw [if_neg (by simpa using hid), if_neg hne]
      exact ⟨_, rfl, hmodel, htype⟩
    · rw [if_pos (by simpa using hid)]
      exact ⟨old, rfl, hmodel, htype⟩

/-- Of two stored objects with one class and one row of this class the same is loaded, but for the
identity. -/
theorem object?_congr_own (hk : k.Storable) {id : Int} {st st' : StoredObject}
    (hst : db.objects.get? id = some st) (hst' : db'.objects.get? id = some st')
    (htype : st'.cimType = st.cimType)
    (hrow : st'.rows.get? st.cimType = st.rows.get? st.cimType) :
    db'.object? k id =
      (db.object? k id).map fun x => { x with rdfid := st'.rdfid, model := some st'.model } := by
  cases hc : k.get? st.cimType with
  | none => simp [Database.object?, hst, hst', htype, hc]
  | some c =>
    have hname := hk.name_eq hc
    cases hown : st.rows.get? st.cimType with
    | none => simp [Database.object?, load?, hst, hst', htype, hc, hname, hrow, hown]
    | some row =>
      simp only [Database.object?, load?, hst, hst', htype, hc, hname, hrow, hown,
        Option.bind_eq_bind, Option.bind_some]
      cases row.fields c.attributes <;> rfl

/-- **A deletion removes what is loaded under an id, or leaves it as it is.** It removes it if it
names the id and the class of the object; a row of another class does not count for what is
loaded. -/
theorem object?_drop (hk : k.Storable) (db : Database) (cimType : String) (ids : List Int)
    (id : Int) : (db.drop cimType ids).object? k id =
      (db.object? k id).filter fun x => ¬(cimType = x.cimType ∧ id ∈ ids) := by
  cases hx : db.object? k id with
  | none =>
    cases hst' : (db.drop cimType ids).objects.get? id with
    | none => simp [Database.object?, hst']
    | some st' =>
      obtain ⟨st, hst, -, htype, -, hrow, -⟩ := get?_drop_some hst'
      rw [object?_congr_own hk hst hst' htype (htype ▸ hrow), hx]
      rfl
  | some x =>
    obtain ⟨st, hst, -, htype, hrdfid, hmodel⟩ := object?_some hk hx
    by_cases hnamed : cimType = x.cimType ∧ id ∈ ids
    · have hgone : (db.drop cimType ids).objects.get? id = none := by
        simp [get?_drop, hst, hnamed.2, hnamed.1, ← htype]
      rw [Option.filter_some_neg (by simpa using hnamed), Database.object?, hgone]
      rfl
    · have hkept : ∃ rows, (db.drop cimType ids).objects.get? id = some { st with rows } ∧
          rows.get? st.cimType = st.rows.get? st.cimType := by
        by_cases hid : id ∈ ids
        · have hne : cimType ≠ st.cimType := fun heq => hnamed ⟨heq.trans htype.symm, hid⟩
          exact ⟨st.rows.erase cimType, by simp [get?_drop, hst, hid, hne.symm],
            by rw [SortedMap.get?_erase, if_neg hne.symm]⟩
        · exact ⟨st.rows, by simp [get?_drop, hst, hid], rfl⟩
      obtain ⟨rows, hst', hrow⟩ := hkept
      rw [object?_congr_own hk hst hst' rfl hrow, hx,
        Option.filter_some_pos (by exact decide_eq_true hnamed)]
      simp only [Option.map_some, ← hrdfid, ← hmodel]

/-- `db'` is `db` without some of its objects, or some of their rows. -/
structure Shrinks (db db' : Database) : Prop where
  old : ∀ {id st}, db'.objects.get? id = some st →
    ∃ st₀, db.objects.get? id = some st₀ ∧ st.model = st₀.model ∧ st.cimType = st₀.cimType
  models : db'.models = db.models
  lastObject : db'.lastObject = db.lastObject
  lastModel : db'.lastModel = db.lastModel

theorem Shrinks.refl (db : Database) : db.Shrinks db :=
  ⟨fun h => ⟨_, h, rfl, rfl⟩, rfl, rfl, rfl⟩

theorem Shrinks.trans (h : db.Shrinks db') (h' : db'.Shrinks db'') : db.Shrinks db'' where
  old hst := by
    obtain ⟨st', hst', hmodel', htype'⟩ := h'.old hst
    obtain ⟨st₀, hst₀, hmodel, htype⟩ := h.old hst'
    exact ⟨st₀, hst₀, hmodel'.trans hmodel, htype'.trans htype⟩
  models := h'.models.trans h.models
  lastObject := h'.lastObject.trans h.lastObject
  lastModel := h'.lastModel.trans h.lastModel

theorem Shrinks.drop (db : Database) (cimType : String) (ids : List Int) :
    db.Shrinks (db.drop cimType ids) where
  old hst := by
    obtain ⟨st₀, hst₀, -, htype, hmodel, -⟩ := get?_drop_some hst
    exact ⟨st₀, hst₀, hmodel, htype⟩
  models := rfl
  lastObject := rfl
  lastModel := rfl

theorem Shrinks.mem_objectsOf (h : db.Shrinks db') {model : Int} {e : Int × String}
    (he : e ∈ db'.objectsOf model) : e ∈ db.objectsOf model := by
  obtain ⟨st, hst, hmodel, htype⟩ := Database.mem_objectsOf.mp he
  obtain ⟨st₀, hst₀, hmodel', htype'⟩ := h.old hst
  exact Database.mem_objectsOf.mpr ⟨st₀, hst₀, hmodel' ▸ hmodel, htype' ▸ htype⟩

/-! ## Several deletions -/

/-- Deletions, one after the other. -/
def dropAll (db : Database) (bs : List (String × List Int)) : Database :=
  bs.foldl (fun db b => db.drop b.1 b.2) db

theorem Shrinks.dropAll (db : Database) (bs : List (String × List Int)) :
    db.Shrinks (db.dropAll bs) := by
  induction bs generalizing db with
  | nil => exact .refl db
  | cons b bs ih => exact (Shrinks.drop ..).trans (ih _)

/-- What no deletion names stays. -/
theorem get?_dropAll_of_not_mem {bs : List (String × List Int)} {id : Int}
    (h : ∀ b ∈ bs, id ∉ b.2) : (db.dropAll bs).objects.get? id = db.objects.get? id := by
  induction bs generalizing db with
  | nil => rfl
  | cons b bs ih =>
    obtain ⟨hb, hrest⟩ := List.forall_mem_cons.mp h
    show ((db.drop b.1 b.2).dropAll bs).objects.get? id = _
    rw [ih hrest, get?_drop]
    cases db.objects.get? id <;> simp [hb]

/-- Together they remove exactly the listed entries that one of them names. -/
theorem mem_objectsOf_dropAll {bs : List (String × List Int)} {model id : Int} {t : String} :
    (id, t) ∈ (db.dropAll bs).objectsOf model ↔
      (id, t) ∈ db.objectsOf model ∧ ∀ b ∈ bs, ¬(b.1 = t ∧ id ∈ b.2) := by
  induction bs generalizing db with
  | nil => simp [dropAll]
  | cons b bs ih =>
    show (id, t) ∈ ((db.drop b.1 b.2).dropAll bs).objectsOf model ↔ _
    rw [ih, mem_objectsOf_drop, List.forall_mem_cons, and_assoc]

theorem object?_dropAll (hk : k.Storable) (db : Database) (bs : List (String × List Int))
    (id : Int) : (db.dropAll bs).object? k id =
      (db.object? k id).filter fun x => ∀ b ∈ bs, ¬(b.1 = x.cimType ∧ id ∈ b.2) := by
  induction bs generalizing db with
  | nil => cases hx : db.object? k id <;> simp [dropAll, hx, Option.filter]
  | cons b bs ih =>
    show ((db.drop b.1 b.2).dropAll bs).object? k id = _
    rw [ih, object?_drop hk, Option.filter_filter]
    refine congrArg (Option.filter · _) (funext fun x => ?_)
    simp only [List.forall_mem_cons, ← Bool.decide_and]

end Database

namespace Service

variable {k : Catalog} {s s' : Service}

/-- A deletion of an unknown class fails and changes nothing; any other removes what it names. -/
theorem deleteBatch_cases (hk : k.Storable) (hs : s.store.classes = k) (cimType : String)
    (ids : List Int) :
    (k.get? cimType = none ∧
        ∃ e s', deleteBatch cimType ids s = (.error e, s') ∧ s'.store = s.store) ∨
      ∃ s', deleteBatch cimType ids s = (.ok (), s') ∧
        s'.store = { s.store with db := s.store.db.drop cimType ids } := by
  cases hfind : s.store.classes.find cimType with
  | error e =>
    have hnone : k.get? cimType = none := by
      cases hc : k.get? cimType with
      | none => rfl
      | some c =>
        rw [hs, Catalog.find_eq_ok_iff.mpr hc] at hfind
        exact nomatch hfind
    refine .inl ⟨hnone, e, { s with calls := s.calls ++ [.deleteBatch cimType ids] }, ?_, rfl⟩
    show tryStore (·.deleteBatch cimType ids) _ = _
    simp only [tryStore, Store.deleteBatch, hfind]
    rfl
  | ok c =>
    have hname : c.name = cimType := hk.name_eq (Catalog.find_eq_ok_iff.mp (hs ▸ hfind))
    subst hname
    refine .inr ⟨{ s with
      store := { s.store with db := s.store.db.drop c.name ids }
      calls := s.calls ++ [.deleteBatch c.name ids] }, ?_, rfl⟩
    show tryStore (·.deleteBatch c.name ids) _ = _
    simp only [tryStore, Store.deleteBatch_eq hfind]

/-- **Several deletions** are made in order, up to the first of an unknown class. -/
theorem deleteAll_cases (hk : k.Storable) (hs : s.store.classes = k)
    {bs : List (String × List Int)} {r : Except Error Unit} (h : deleteAll bs s = (r, s')) :
    ∃ done rest, bs = done ++ rest ∧
      s'.store = { s.store with db := s.store.db.dropAll done } ∧
      (r = .ok () ∧ rest = [] ∨ (∃ e, r = .error e) ∧ ∃ b ∈ rest, k.get? b.1 = none) := by
  induction bs generalizing s with
  | nil =>
    cases h
    exact ⟨[], [], rfl, rfl, .inl ⟨rfl, rfl⟩⟩
  | cons b bs ih =>
    unfold deleteAll at h
    rcases deleteBatch_cases hk hs b.1 b.2 with ⟨hnone, e, s₁, hbatch, hstore⟩ |
      ⟨s₁, hbatch, hstore⟩
    · rw [bind_eq hbatch] at h
      cases h
      exact ⟨[], b :: bs, rfl, hstore, .inr ⟨⟨e, rfl⟩, b, List.mem_cons_self .., hnone⟩⟩
    · rw [bind_eq hbatch] at h
      change deleteAll bs s₁ = _ at h
      obtain ⟨done, rest, rfl, hstore', hok⟩ := ih (by rw [hstore]; exact hs) h
      exact ⟨b :: done, rest, rfl, by rw [hstore', hstore]; rfl, hok⟩

end Service

end CimStore

import CimStore.Proofs.Runs
import Mathlib.Logic.Relation

/-!
# What a store goes through

An operation of a service makes several calls to its store, and between them the store passes
through states that no operation ends in.

* `Store.Advances` is one call that leaves a transaction open, or opens or commits one;
  `Store.GoesBack` is the loss of what was done in a transaction. `Store.Run` is any number of
  them, `Store.Forward` any number of calls of the first kind.
* `Service.run_perform`, `Service.run_performs`: every operation is a run of calls, a forward one if
  it rolls nothing back, and so is every sequence of operations.
* `Store.Forward.earlier`: going forward no id is taken back, so the numbers from which new ids
  are taken never sink. `Service.Reachable.begun_earlier` compares them with those that a rollback
  goes back to.
-/

namespace CimStore

/-! ## Ids that have been given -/

namespace Database

/-- All ids that had been given in `db` have been given in `db'`. -/
structure Earlier (db db' : Database) : Prop where
  lastObject : db.lastObject ≤ db'.lastObject
  lastModel : db.lastModel ≤ db'.lastModel

theorem Earlier.refl (db : Database) : db.Earlier db := ⟨Int.le_refl _, Int.le_refl _⟩

theorem Earlier.trans {a b c : Database} (h : a.Earlier b) (h' : b.Earlier c) : a.Earlier c :=
  ⟨Int.le_trans h.lastObject h'.lastObject, Int.le_trans h.lastModel h'.lastModel⟩

theorem Stores.earlier {db db' : Database} {o : Object} {model id : Int}
    (h : db.Stores o model id db') : db.Earlier db' where
  lastObject := by
    have := h.lastObject
    omega
  lastModel := Int.le_of_eq h.lastModel.symm

end Database

namespace Store

theorem saveAll_earlier (c : CimClass) (db : Database) (os : List Object) :
    db.Earlier (saveAll c db os).db := by
  induction os generalizing db with
  | nil => exact .refl db
  | cons o os ih =>
    unfold saveAll
    rcases db.save_cases c o with ⟨e, hsave⟩ | ⟨model, id, db', hsave, -, hs⟩
    · simp only [hsave]
      exact .refl db
    · simp only [hsave]
      exact hs.earlier.trans (ih db')

/-! ## Calls to a store -/

/-- A call to the store after which no less has been done than before. -/
inductive Advances : Store → Store → Prop
  | begin {s s' : Store} : s.begin = .ok s' → Advances s s'
  | commit {s s' : Store} : s.commit = .ok s' → Advances s s'
  | saveModel {s s' : Store} {m : Model} {id : Int} : s.saveModel m = (.ok id, s') → Advances s s'
  | deleteModel (s : Store) (id : Int) : Advances s (s.deleteModel id).2
  | saveBatch (s : Store) (cimType : String) (os : List Object) :
      Advances s (s.saveBatch cimType os).2
  | deleteBatch {s s' : Store} {cimType : String} {ids : List Int} :
      s.deleteBatch cimType ids = .ok s' → Advances s s'

/-- What was done in the open transaction is lost: it is rolled back, the store is opened again, or
a model cannot be given an id. -/
def GoesBack (s s' : Store) : Prop := ∃ db, s.begun = some db ∧ s' = { s with db, begun := none }

/-- The store went from one state to the other by calls that leave no less done. -/
def Forward : Store → Store → Prop := Relation.ReflTransGen Advances

/-- The store went from one state to the other. -/
def Run : Store → Store → Prop := Relation.ReflTransGen fun s s' => Advances s s' ∨ GoesBack s s'

variable {k : Catalog} {s s' a b : Store}

theorem Forward.run (h : Forward a b) : Run a b := by
  induction h with
  | refl => exact .refl
  | tail _ hstep ih => exact ih.tail (.inl hstep)

theorem Advances.forward (h : Advances a b) : Forward a b := .single h

theorem GoesBack.run (h : GoesBack a b) : Run a b := .single (.inr h)

theorem Advances.earlier (h : Advances a b) : a.db.Earlier b.db := by
  cases h with
  | begin h =>
    obtain ⟨-, rfl⟩ := begin_ok h
    exact .refl _
  | commit h =>
    obtain rfl := commit_ok h
    exact .refl _
  | saveModel h =>
    rcases a.saveModel_cases _ with ⟨i, hsave, -⟩ | ⟨e, hsave, -⟩
    · cases hsave.symm.trans h
      exact ⟨Int.le_refl _, Int.le_max_left ..⟩
    · exact nomatch hsave.symm.trans h
  | deleteModel id => exact ⟨Int.le_refl _, Int.le_refl _⟩
  | saveBatch cimType os =>
    unfold Store.saveBatch
    split
    · exact .refl _
    · exact saveAll_earlier ..
  | deleteBatch h =>
    obtain ⟨c, -, rfl⟩ := deleteBatch_ok h
    exact ⟨Int.le_refl _, Int.le_refl _⟩

/-- **Going forward no id is taken back.** -/
theorem Forward.earlier (h : Forward a b) : a.db.Earlier b.db := by
  induction h with
  | refl => exact .refl _
  | tail _ hstep ih => exact ih.trans hstep.earlier

/-- Every state that a sound store goes through is sound. -/
theorem Run.sound (hk : k.Storable) (ha : a.Sound k) (h : Run a b) : b.Sound k := by
  induction h with
  | refl => exact ha
  | tail _ hstep ih =>
    rcases hstep with hadv | ⟨db, hbegun, rfl⟩
    · cases hadv with
      | begin h => exact ih.begin h
      | commit h => exact ih.commit h
      | @saveModel _ m _ h =>
        have hsound := ih.saveModel m
        rwa [h] at hsound
      | deleteModel id => exact ih.deleteModel id
      | saveBatch cimType os => exact ih.saveBatch hk cimType os
      | deleteBatch h => exact ih.deleteBatch h
    · exact ⟨ih.classes, ih.begun db hbegun, fun _ h => nomatch h⟩

/-! ## Operations as runs of calls -/

/-- `a` has come of `s` by writing: going forward, or with the open transaction rolled back. -/
def Tracks (s a : Store) : Prop :=
  Forward s a ∧ a.begun = s.begun ∨ s.begun ≠ none ∧ a.begun = none ∧ Run s a

theorem Tracks.forward (h : Tracks s a) (hab : Forward a b) (hb : b.begun = a.begun) :
    Tracks s b := by
  rcases h with ⟨hsa, ha⟩ | ⟨hopen, ha, hsa⟩
  · exact .inl ⟨hsa.trans hab, hb.trans ha⟩
  · exact .inr ⟨hopen, hb.trans ha, hsa.trans hab.run⟩

theorem Tracks.run (h : Tracks s a) : Run s a := by
  rcases h with ⟨hsa, -⟩ | ⟨-, -, hsa⟩
  · exact hsa.run
  · exact hsa

/-- A call that writes goes forward, or it rolls back the open transaction. -/
theorem invariant_tracks (s : Store) : Store.Invariant (Tracks s) where
  saveModel {a} m h := by
    rcases a.saveModel_cases m with ⟨id, hsave, -⟩ | ⟨e, hsave, -⟩
    · rw [hsave]
      exact h.forward (Advances.saveModel hsave).forward rfl
    · rw [hsave]
      cases hbegun : a.begun with
      | none =>
        have hsame : ({ a with db := a.db, begun := none } : Store) = a := by rw [← hbegun]
        exact hsame ▸ h
      | some db =>
        have hopen : s.begun ≠ none := by
          rcases h with ⟨-, ha⟩ | ⟨hopen, -, -⟩
          · rw [← ha, hbegun]
            exact nofun
          · exact hopen
        exact .inr ⟨hopen, rfl, h.run.trans (GoesBack.run ⟨db, hbegun, rfl⟩)⟩
  deleteModel {a} id h := h.forward (Advances.deleteModel a id).forward rfl
  saveBatch {a} cimType os h := by
    refine h.forward (Advances.saveBatch a cimType os).forward ?_
    unfold Store.saveBatch
    split <;> rfl
  deleteBatch h hdelete := by
    refine h.forward (Advances.deleteBatch hdelete).forward ?_
    obtain ⟨c, -, rfl⟩ := deleteBatch_ok hdelete
    rfl

/-- While a transaction is open, no fewer ids have been given than when it began. -/
theorem runInvariant_earlier :
    Store.RunInvariant fun s => ∀ db, s.begun = some db → db.Earlier s.db where
  saveModel {s} m h db hdb := by
    rcases s.saveModel_cases m with ⟨id, hsave, -⟩ | ⟨e, hsave, -⟩
    · rw [hsave] at hdb ⊢
      exact (h db hdb).trans (Advances.saveModel hsave).earlier
    · rw [hsave] at hdb
      exact nomatch hdb
  deleteModel {s} id h db hdb := (h db hdb).trans (Advances.deleteModel s id).earlier
  saveBatch {s} cimType os h db hdb := by
    refine (h db ?_).trans (Advances.saveBatch s cimType os).earlier
    rw [← hdb]
    unfold Store.saveBatch
    split <;> rfl
  deleteBatch {s s'} cimType ids h hs db hdb := by
    have hearlier := (Advances.deleteBatch hs).earlier
    obtain ⟨c, -, rfl⟩ := deleteBatch_ok hs
    exact (h db hdb).trans hearlier
  begin h hs db hdb := by
    obtain ⟨-, rfl⟩ := begin_ok hs
    cases hdb
    exact .refl _
  commit h hs db hdb := by
    obtain rfl := commit_ok hs
    exact nomatch hdb
  rollBack h hs db hdb := by
    obtain ⟨_, -, rfl⟩ := rollBack_ok hs
    exact nomatch hdb
  reopen h db hdb := nomatch hdb

end Store

/-- The call rolls back the open transaction, or loses it. -/
def Op.RollsBack (op : Op) (s : Service) : Prop :=
  op ≠ .commit ∧ s.store.begun ≠ none ∧ (op.perform s).store.begun = none

namespace Service

variable {k : Catalog} {s : Service}

/-- An operation that can fail has been done, or the store is as before. -/
theorem tryStore_cases (f : Store → Except Error Store) (s : Service) :
    f s.store = .ok (run (tryStore f) s).store ∨ (run (tryStore f) s).store = s.store := by
  unfold run tryStore
  split
  · rename_i store hstore
    exact .inl hstore
  · exact .inr rfl

/-- **Every operation is a run of calls to the store.** If it rolls nothing back, it goes forward
only. -/
theorem run_perform (op : Op) (s : Service) :
    s.store.Run (op.perform s).store ∧
      (¬op.RollsBack s → s.store.Forward (op.perform s).store) := by
  have hsame : (op.perform s).store = s.store → s.store.Forward (op.perform s).store := fun heq =>
    heq ▸ .refl
  have hforward : s.store.Forward (op.perform s).store → s.store.Run (op.perform s).store ∧
      (¬op.RollsBack s → s.store.Forward (op.perform s).store) := fun h => ⟨h.run, fun _ => h⟩
  have hwrites : op.isControl = false → s.store.Run (op.perform s).store ∧
      (¬op.RollsBack s → s.store.Forward (op.perform s).store) := by
    intro hop
    have htracks := perform_writes (Store.invariant_tracks s.store) hop (.inl ⟨.refl, rfl⟩)
    refine ⟨htracks.run, fun hnot => ?_⟩
    rcases htracks with ⟨hforward, -⟩ | ⟨hopen, hnone, -⟩
    · exact hforward
    · refine absurd ⟨?_, hopen, hnone⟩ hnot
      rintro rfl
      exact nomatch hop
  cases op with
  | begin =>
    rcases tryStore_cases Store.begin s with hok | heq
    · exact hforward (Store.Advances.begin hok).forward
    · exact hforward (hsame heq)
  | commit =>
    rcases tryStore_cases Store.commit s with hok | heq
    · exact hforward (Store.Advances.commit hok).forward
    · exact hforward (hsame heq)
  | rollBack =>
    rcases tryStore_cases Store.rollBack s with hok | heq
    · obtain ⟨db, hbegun, hstore⟩ := Store.rollBack_ok hok
      refine ⟨Store.GoesBack.run ⟨db, hbegun, hstore⟩, fun hnot => absurd ⟨nofun, ?_, ?_⟩ hnot⟩
      · rw [hbegun]
        exact nofun
      · exact congrArg Store.begun hstore
    · exact hforward (hsame heq)
  | reopen =>
    cases hbegun : s.store.begun with
    | none =>
      refine hforward (hsame ?_)
      show { classes := s.store.classes, db := s.store.begun.getD s.store.db } = s.store
      rw [hbegun, Option.getD_none, ← hbegun]
    | some db =>
      refine ⟨Store.GoesBack.run ⟨db, hbegun, ?_⟩, fun hnot => absurd ⟨nofun, ?_, rfl⟩ hnot⟩
      · show s.store.reopen s.store.classes = _
        unfold Store.reopen
        rw [hbegun]
        rfl
      · rw [hbegun]
        exact nofun
  | _ => exact hwrites rfl

/-- One of the calls, made in order, rolls back the open transaction. -/
def RollsBack : Service → List Op → Prop
  | _, [] => False
  | s, op :: ops => op.RollsBack s ∨ RollsBack (op.perform s) ops

/-- So is every sequence of operations. -/
theorem run_performs (ops : List Op) (s : Service) :
    s.store.Run (s.perform ops).store ∧
      (¬s.RollsBack ops → s.store.Forward (s.perform ops).store) := by
  induction ops generalizing s with
  | nil => exact ⟨.refl, fun _ => .refl⟩
  | cons op ops ih =>
    obtain ⟨hrun, hforward⟩ := run_perform op s
    obtain ⟨hruns, hforwards⟩ := ih (op.perform s)
    refine ⟨hrun.trans hruns, fun hnot => ?_⟩
    exact (hforward fun h => hnot (.inl h)).trans (hforwards fun h => hnot (.inr h))

/-- While a transaction is open, no fewer ids have been given than when it began. -/
theorem Reachable.begun_earlier (hs : Reachable k s) {db : Database}
    (hbegun : s.store.begun = some db) : db.Earlier s.store.db :=
  hs.of_invariant Store.runInvariant_earlier (fun _ h => nomatch h) db hbegun

end Service

end CimStore

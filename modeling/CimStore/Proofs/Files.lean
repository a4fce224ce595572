import CimStore.Disk.Databases
import CimStore.Proofs.Maps

/-!
# Databases in their files

What an open database holds is what is in its file, when it is opened and when it is closed:

* `Disk.beside_ne`: the files that the engine keeps beside a database are other ones, so dealing
  with them leaves the database as it is (`Disk.get?_settle`, `Disk.get?_closeLog`);
* `Disk.openDatabase_holds`: a database that has been opened holds what is in its file;
* `Disk.keep_holds`: what is kept of it is in the file then.
-/

namespace CimStore

namespace Disk

variable {d d' : Disk} {a : Address} {p q : Place} {e : Entry} {o : Opened} {db : Database}
  {isEmpty : Bool}

/-! ## One place and another -/

theorem get?_put_self (hp : p ≠ []) : (d.put p e).get? p = some e := by
  rw [get?, if_neg (by simpa using hp), put, SortedMap.get?_insert_self]

/-- What is removed is somewhere else. -/
theorem get?_remove (hne : q ≠ p) : (d.remove q).get? p = d.get? p := by
  rw [get?, get?, remove, SortedMap.get?_erase, if_neg hne.symm]

theorem get?_removeFile (hne : q ≠ p) : (d.removeFile q).get? p = d.get? p := by
  unfold removeFile
  split
  · rfl
  · exact get?_remove hne

/-- A name that is longer by an ending is another one. -/
theorem beside_ne (p : Place) {ending : String} (h : Text.bytes ending ≠ []) :
    beside p ending ≠ p := by
  intro heq
  rcases List.eq_nil_or_concat p with rfl | ⟨ns, n, rfl⟩
  · simp [beside] at heq
  · simp [beside, h] at heq

theorem beside_journal_ne (p : Place) : beside p journalEnding ≠ p :=
  beside_ne p (by decide +kernel)

theorem beside_log_ne (p : Place) : beside p logEnding ≠ p :=
  beside_ne p (by decide +kernel)

/-! ## What is dealt with beside a database -/

/-- A journal stays or is removed. -/
theorem settleJournal_ok (h : d.settleJournal a p isEmpty = .ok d') :
    d' = d ∨ d' = d.removeFile (beside p journalEnding) ∨
      d' = d.remove (beside p journalEnding) := by
  simp only [settleJournal] at h
  cases hfound : if d.seemsInChange a p then none else d.getFilled? (beside p journalEnding) with
  | none =>
    rw [hfound] at h
    exact .inl (Except.ok.inj h).symm
  | some e =>
    simp only [hfound] at h
    split at h
    · obtain rfl := Except.ok.inj h
      split
      · exact .inl rfl
      · exact .inr (.inl rfl)
    · split at h
      · exact nomatch h
      · split at h
        · exact .inl (Except.ok.inj h).symm
        · split at h
          · exact nomatch h
          · exact .inr (.inr (Except.ok.inj h).symm)

/-- So does a log. -/
theorem settleLog_ok (h : d.settleLog a p isEmpty = .ok d') :
    d' = d ∨ d' = d.remove (beside p logEnding) := by
  simp only [settleLog] at h
  cases hfound : d.getFilled? (beside p logEnding) with
  | none =>
    rw [hfound] at h
    exact .inl (Except.ok.inj h).symm
  | some e =>
    simp only [hfound] at h
    split at h
    · split at h
      · exact nomatch h
      · exact .inr (Except.ok.inj h).symm
    · split at h
      · exact nomatch h
      · exact .inl (Except.ok.inj h).symm

/-- **Dealing with the files beside a database** leaves its own file as it is. -/
theorem get?_settle (h : d.settle a p isEmpty = (.ok (), d')) : d'.get? p = d.get? p := by
  unfold settle at h
  split at h
  · cases h
    rfl
  · split at h
    · exact nomatch h
    · rename_i d₁ hjournal
      split at h
      · exact nomatch h
      · rename_i d₂ hlog
        cases h
        have hjournal : d.settleJournal a p isEmpty = .ok d₁ := by
          cases hlock : d.checkLock a p with
          | error fault => simp [hlock, bind, Except.bind] at hjournal
          | ok _ => simpa [hlock, bind, Except.bind] using hjournal
        have hlogged : d'.get? p = d₁.get? p := by
          rcases settleLog_ok hlog with rfl | rfl
          · rfl
          · exact get?_remove (beside_log_ne p)
        rcases settleJournal_ok hjournal with rfl | rfl | rfl
        · exact hlogged
        · exact hlogged.trans (get?_removeFile (beside_journal_ne p))
        · exact hlogged.trans (get?_remove (beside_journal_ne p))

theorem get?_closeLog (d : Disk) (a : Address) (p : Place) :
    (d.closeLog a p).get? p = d.get? p := by
  unfold closeLog
  split
  · rfl
  · exact get?_removeFile (beside_log_ne p)

/-! ## Opening and keeping -/

/-- What the open database holds is in its file, if it has one. -/
def Holds (d : Disk) (o : Opened) (db : Database) : Prop :=
  ∀ p, o.place? = some p → d.get? p = some (.database db)

/-- A database that is set up is put into its file. -/
theorem setUp_holds {isReadOnly hasRoom : Bool} (hp : p ≠ [])
    (h : d.setUp isReadOnly hasRoom p = (.ok o, d')) :
    o.place? = some p ∧ d'.get? p = some (.database o.content) := by
  unfold setUp at h
  split at h
  · exact nomatch h
  · split at h
    · exact nomatch h
    · split at h
      · exact nomatch h
      · cases h
        exact ⟨rfl, get?_put_self hp⟩

/-- When the files beside a database have been dealt with, the database is found as it was. -/
theorem settled_holds {next : Disk → Except OpenFault Opened × Disk}
    (h : openEntry.settled d a p isEmpty next = (.ok o, d'))
    (hnext : ∀ d₁ d₂ o, d₁.get? p = d.get? p → next d₁ = (.ok o, d₂) →
      o.place? = some p ∧ d₂.get? p = some (.database o.content)) :
    o.place? = some p ∧ d'.get? p = some (.database o.content) := by
  unfold openEntry.settled at h
  split at h
  · exact nomatch h
  · rename_i d₁ hsettle
    split at h
    · exact nomatch h
    · rename_i o' d₂ hok
      cases h
      rw [get?_closeLog]
      exact hnext d₁ d₂ o (get?_settle hsettle) hok

theorem openEntry_holds {text : String} (he : d.get? p = some e)
    (h : d.openEntry text a p e = (.ok o, d')) : d'.Holds o o.content := by
  suffices o.place? = some p ∧ d'.get? p = some (.database o.content) by
    intro q hq
    obtain rfl := Option.some.inj (this.1.symm.trans hq)
    exact this.2
  -- The root is a folder.
  have hp : e ≠ .folder → p ≠ [] := by
    rintro hne rfl
    exact hne (Option.some.inj he).symm
  cases e with
  | folder => exact nomatch h
  | sink => exact nomatch h
  | binary =>
    simp only [openEntry] at h
    exact settled_holds h fun _ _ _ _ hnext => nomatch hnext
  | database db =>
    simp only [openEntry] at h
    refine settled_holds h fun d₁ d₂ o hget hnext => ?_
    cases hnext
    exact ⟨rfl, hget.trans he⟩
  | text t =>
    simp only [openEntry] at h
    split at h
    · exact settled_holds h fun _ _ _ _ hnext => setUp_holds (hp nofun) hnext
    · exact settled_holds h fun _ _ _ _ hnext => nomatch hnext
    · exact settled_holds h fun _ _ _ _ hnext => nomatch hnext
    · exact settled_holds h fun _ _ _ _ hnext => nomatch hnext
    · exact settled_holds h fun _ _ _ _ hnext => setUp_holds (hp nofun) hnext

theorem openAt_holds {text : String} (h : d.openAt text a p = (.ok o, d')) :
    d'.Holds o o.content := by
  unfold openAt at h
  split at h
  · rename_i e he
    exact openEntry_holds he h
  · rename_i hnone
    split at h
    · have hp : p ≠ [] := by
        rintro rfl
        exact nomatch hnone
      exact openEntry_holds (get?_put_self hp) h
    · exact nomatch h

/-- **What is opened is in its file.** -/
theorem openDatabase_holds {text : String} (h : d.openDatabase text = (.ok o, d')) :
    d'.Holds o o.content := by
  simp only [openDatabase] at h
  split at h
  · exact nomatch h
  · split at h
    · exact nomatch h
    · split at h
      · split at h
        · exact nomatch h
        · cases h
          exact fun p hp => nomatch hp
      · split at h
        · exact nomatch h
        · split at h
          · exact openAt_holds h
          · exact nomatch h

/-- **What is kept is in the file.** -/
theorem keep_holds (hholds : d.Holds o o.content) (h : d.keep o db = .ok d') : d'.Holds o db := by
  unfold keep at h
  split at h
  · rename_i hsame
    cases h
    exact hsame ▸ hholds
  · split at h
    · exact nomatch h
    · split at h
      · rename_i hnone
        intro p hp
        exact nomatch hnone.symm.trans hp
      · rename_i p hplace
        split at h
        · cases h
          intro q hq
          obtain rfl := Option.some.inj (hplace.symm.trans hq)
          refine get?_put_self ?_
          rintro rfl
          exact nomatch hholds [] hplace
        · exact nomatch h

theorem keep_content (d : Disk) (o : Opened) : d.keep o o.content = .ok d := by
  rw [keep, if_pos rfl]

end Disk

end CimStore

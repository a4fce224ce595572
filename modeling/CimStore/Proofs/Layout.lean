import CimStore.Proofs.Comparing
import CimStore.Proofs.DeclaredTables

/-!
# The tables that a database makes

A database runs the statements of a schema one after the other. A statement makes the table that it
declares, but passes over it if there is a table of the name, whatever its columns are. It fails if
the name is one that the database keeps for itself, and if the columns have not each a name of their
own. This is how SQLite documents `CREATE TABLE IF NOT EXISTS`.

* `Schema.Declared.Valid`: the tables that can be made;
* `Schema.layOut`: the tables that statements make, if none of them fails;
* `Schema.layOut_eq_tables_iff`: all tables that a store declares are made if and only if they can
  be made and no two of them have one name.
-/

namespace CimStore.Schema

open Comparison

/-! ## Tables that can be made -/

/-- A database keeps the names of its indexes for itself, and all that begin with `sqlite_`. -/
def isReserved (name : String) : Bool :=
  (ignoringCase.key "sqlite_").isPrefixOf (ignoringCase.key name) ||
    indexes.any fun index => ignoringCase.key name = ignoringCase.key index

/-- So many columns a table can have, and a row of a query. -/
def maxColumns : Nat := 2000

namespace Declared

/-- The statement can be read to its end: no name has the character that ends a text. -/
def IsWritten (t : Declared) : Prop := ∀ name ∈ t.table :: t.columns, '\x00' ∉ name.toList

instance (t : Declared) : Decidable t.IsWritten :=
  inferInstanceAs (Decidable (∀ name ∈ t.table :: t.columns, '\x00' ∉ name.toList))

/-- The table is made where its name is not taken. -/
structure Valid (t : Declared) : Prop where
  written : t.IsWritten
  free : isReserved t.table = false
  columns : ignoringCase.Distinct t.columns
  width : t.columns.length ≤ maxColumns

instance (t : Declared) : Decidable t.Valid :=
  decidable_of_iff (t.IsWritten ∧ isReserved t.table = false ∧ ignoringCase.Distinct t.columns ∧
    t.columns.length ≤ maxColumns) ⟨fun ⟨hw, hf, hc, hn⟩ => ⟨hw, hf, hc, hn⟩,
      fun ⟨hw, hf, hc, hn⟩ => ⟨hw, hf, hc, hn⟩⟩

end Declared

/-! ## Statements that are run -/

/-- One of the tables has the name. -/
def IsTaken (made : List Declared) (name : String) : Prop :=
  ignoringCase.key name ∈ made.map fun t => ignoringCase.key t.table

instance (made : List Declared) (name : String) : Decidable (IsTaken made name) :=
  inferInstanceAs (Decidable (_ ∈ made.map _))

/-- The tables after a statement that declares the table, if it does not fail. -/
def make (made : List Declared) (t : Declared) : Option (List Declared) :=
  if ¬t.IsWritten then none
  else if IsTaken made t.table then some made
  else if t.Valid then some (made ++ [t])
  else none

/-- The tables after a statement. One that declares no table makes none. -/
def run (made : List Declared) (statement : String) : Option (List Declared) :=
  match declared? statement with
  | some t => make made t
  | none => some made

/-- The tables that statements make of an empty database. -/
def layOut (statements : List String) : Option (List Declared) := statements.foldlM run []

theorem layOut_eq (statements : List String) :
    layOut statements = (statements.filterMap declared?).foldlM make [] := by
  have hfrom : ∀ made, statements.foldlM run made =
      (statements.filterMap declared?).foldlM make made := by
    induction statements with
    | nil => exact fun made => rfl
    | cons statement statements ih =>
      intro made
      rw [List.foldlM_cons, run]
      cases hdeclared : declared? statement with
      | none =>
        rw [List.filterMap_cons_none hdeclared, Option.bind_eq_bind, Option.bind_some]
        exact ih made
      | some t =>
        rw [List.filterMap_cons_some hdeclared, List.foldlM_cons]
        exact congrArg _ (funext ih)
  exact hfrom []

/-- A statement adds its table, which is then a valid one with a new name, or changes nothing. -/
theorem make_cases {made out : List Declared} {t : Declared} (h : make made t = some out) :
    (out = made ++ [t] ∧ t.Valid ∧ ¬IsTaken made t.table) ∨
      (out = made ∧ IsTaken made t.table) := by
  unfold make at h
  split at h
  · exact nomatch h
  · split at h
    · rename_i htaken
      exact .inr ⟨(Option.some.inj h).symm, htaken⟩
    · rename_i htaken
      split at h
      · rename_i hvalid
        exact .inl ⟨(Option.some.inj h).symm, hvalid, htaken⟩
      · exact nomatch h

theorem make_of_valid {made : List Declared} {t : Declared} (h : t.Valid)
    (htaken : ¬IsTaken made t.table) : make made t = some (made ++ [t]) := by
  rw [make, if_neg (not_not_intro h.written), if_neg htaken, if_pos h]

/-- The tables that are made are some of those declared, in their order. -/
theorem exists_sublist_of_foldlM_make {made out ts : List Declared}
    (h : ts.foldlM make made = some out) : ∃ us, us.Sublist ts ∧ out = made ++ us := by
  induction ts generalizing made with
  | nil => exact ⟨[], .refl _, by simpa using (Option.some.inj h).symm⟩
  | cons t ts ih =>
    rw [List.foldlM_cons] at h
    obtain ⟨next, hnext, hrest⟩ := Option.bind_eq_some_iff.mp h
    obtain ⟨us, hsub, rfl⟩ := ih hrest
    rcases make_cases hnext with ⟨rfl, -, -⟩ | ⟨rfl, -⟩
    · exact ⟨t :: us, hsub.cons_cons t, by simp⟩
    · exact ⟨us, hsub.cons t, rfl⟩

theorem distinct_append_singleton_iff {made : List Declared} {t : Declared} :
    ignoringCase.Distinct ((made ++ [t]).map Declared.table) ↔
      ¬IsTaken made t.table ∧ ignoringCase.Distinct (made.map Declared.table) := by
  have hkeys : ((made ++ [t]).map Declared.table).map ignoringCase.key =
      (made.map fun t => ignoringCase.key t.table).concat (ignoringCase.key t.table) := by
    simp
  rw [Distinct, hkeys, List.nodup_concat, Distinct, List.map_map]
  rfl

/-- All tables are made if and only if they are valid and have new names. -/
theorem foldlM_make_eq_iff {made ts : List Declared}
    (hmade : ignoringCase.Distinct (made.map Declared.table)) :
    ts.foldlM make made = some (made ++ ts) ↔
      ignoringCase.Distinct ((made ++ ts).map Declared.table) ∧ ∀ t ∈ ts, t.Valid := by
  induction ts generalizing made with
  | nil => simp [hmade]
  | cons t ts ih =>
    have hmoved : made ++ t :: ts = (made ++ [t]) ++ ts := by simp
    rw [List.foldlM_cons, hmoved]
    constructor
    · intro h
      obtain ⟨next, hstep, hrest⟩ := Option.bind_eq_some_iff.mp h
      rcases make_cases hstep with ⟨rfl, hvalid, htaken⟩ | ⟨rfl, -⟩
      · have hnext := distinct_append_singleton_iff.mpr ⟨htaken, hmade⟩
        obtain ⟨hdistinct, hall⟩ := (ih hnext).mp hrest
        exact ⟨hdistinct, List.forall_mem_cons.mpr ⟨hvalid, hall⟩⟩
      · -- A table that is passed over is missing in the end.
        obtain ⟨us, hsub, hout⟩ := exists_sublist_of_foldlM_make hrest
        have hlength := congrArg List.length hout
        have hle := hsub.length_le
        simp only [List.length_append, List.length_cons, List.length_nil] at hlength
        omega
    · rintro ⟨hdistinct, hall⟩
      obtain ⟨hvalid, hall⟩ := List.forall_mem_cons.mp hall
      have htaken : ¬IsTaken made t.table := by
        have hfirst := hdistinct.sublist ((List.sublist_append_left (made ++ [t]) ts).map _)
        exact (distinct_append_singleton_iff.mp hfirst).1
      rw [make_of_valid hvalid htaken]
      exact (ih (distinct_append_singleton_iff.mpr ⟨htaken, hmade⟩)).mpr ⟨hdistinct, hall⟩

/-- **All tables that a store declares are made if and only if they are valid and no two of them
have one name.** -/
theorem layOut_eq_tables_iff (cs : List CimClass) :
    layOut (statements ++ cs.flatMap CimClass.schema) = some (tables cs) ↔
      ignoringCase.Distinct ((tables cs).map Declared.table) ∧ ∀ t ∈ tables cs, t.Valid := by
  have hnone : ignoringCase.Distinct (([] : List Declared).map Declared.table) := List.nodup_nil
  rw [layOut_eq]
  exact foldlM_make_eq_iff hnone

end CimStore.Schema

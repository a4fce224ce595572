import CimStore.Store.Schema
import Mathlib.Data.List.Nodup

/-!
# Comparing names

Names are compared as texts, or as a database compares those of its tables and columns, for which
letters count the same in both cases (`Comparison`):

* `Comparison.Distinct`: no two of some names count as the same;
* `Comparison.distinct_renamed_iff`: renaming a word brings two names together only if its new name
  occurs beside it.
-/

namespace CimStore

/-! ## Keys of names -/

/-- How two names are compared. -/
inductive Comparison
  /-- As texts. -/
  | exact
  /-- As names of tables and columns are: upper and lower case letters count as the same. -/
  | ignoringCase
deriving DecidableEq, Repr

namespace Comparison

/-- What counts of a character. -/
def fold : Comparison → Char → Char
  | exact => id
  | ignoringCase => Char.toLower

/-- What counts of a name. -/
def key (k : Comparison) (name : String) : List Char := name.toList.map k.fold

/-- No two of the names count as the same. -/
def Distinct (k : Comparison) (names : List String) : Prop := (names.map k.key).Nodup

instance (k : Comparison) (names : List String) : Decidable (k.Distinct names) :=
  inferInstanceAs (Decidable (names.map k.key).Nodup)

variable {k : Comparison} {x y : String} {names : List String}

theorem key_append (x y : String) : k.key (x ++ y) = k.key x ++ k.key y := by
  simp [key]

theorem key_underscore (k : Comparison) : k.key "_" = ['_'] := by
  cases k <;> decide

theorem fold_eq_underscore_iff {c : Char} : k.fold c = '_' ↔ c = '_' := by
  cases k with
  | exact => exact Iff.rfl
  | ignoringCase =>
    show c.toLower = '_' ↔ c = '_'
    unfold Char.toLower
    split
    · rename_i hupper
      -- Neither an upper case letter nor the lower case one is an underscore.
      obtain ⟨hfirst, hlast⟩ := hupper
      refine iff_of_false (fun heq => ?_) (fun heq => absurd (heq ▸ hlast) (by decide))
      have hval := congrArg (fun c : Char => c.val.toNat) heq
      have hfirst : 65 ≤ c.val.toNat := hfirst
      have hlast : c.val.toNat ≤ 90 := hlast
      change (c.val + 32).toNat = 95 at hval
      have hadd : (c.val + 32).toNat = (c.val.toNat + 32) % 4294967296 := UInt32.toNat_add _ _
      omega
    · exact Iff.rfl

theorem underscore_mem_key_iff {name : String} : '_' ∈ k.key name ↔ '_' ∈ name.toList := by
  simp [key, fold_eq_underscore_iff]

/-- Names with different keys are different. -/
theorem ne_of_key_ne (h : k.key x ≠ k.key y) : x ≠ y := fun heq => h (congrArg k.key heq)

theorem Distinct.key_ne (h : k.Distinct names) (hx : x ∈ names) (hy : y ∈ names) (hne : x ≠ y) :
    k.key x ≠ k.key y :=
  fun heq => hne (List.inj_on_of_nodup_map h hx hy heq)

theorem Distinct.sublist {names' : List String} (h : k.Distinct names) (hs : names'.Sublist names) :
    k.Distinct names' :=
  List.Nodup.sublist (hs.map _) h

/-- Names that count as different are different. -/
theorem Distinct.nodup (h : k.Distinct names) : names.Nodup := List.Nodup.of_map _ h

/-! ## A word renamed -/

variable {word new : String}

/-- Renaming a word brings two names together if one is the word and the other its new name. -/
theorem key_renamed_eq_iff (h : k.key x ≠ k.key y) :
    k.key (if x = word then new else x) = k.key (if y = word then new else y) ↔
      (x = word ∧ k.key y = k.key new) ∨ (y = word ∧ k.key x = k.key new) := by
  have hne := ne_of_key_ne h
  by_cases hx : x = word
  · have hy : y ≠ word := fun hy => hne (hx.trans hy.symm)
    rw [if_pos hx, if_neg hy, eq_comm]
    simp [hx, hy]
  · by_cases hy : y = word
    · rw [if_neg hx, if_pos hy]
      simp [hx, hy]
    · rw [if_neg hx, if_neg hy]
      simp [hx, hy, h]

/-- Another name is met by what is not renamed. -/
theorem key_renamed_eq_other_iff (hword : k.key y ≠ k.key word) (hnew : k.key y ≠ k.key new) :
    k.key (if x = word then new else x) = k.key y ↔ k.key x = k.key y := by
  split
  · rename_i hx
    simp [hx, Ne.symm hword, Ne.symm hnew]
  · exact Iff.rfl

/-- Where the word occurs, no name is the new one. -/
def IsFree (k : Comparison) (word new : String) (names : List String) : Prop :=
  word ∈ names → ∀ y ∈ names, k.key y ≠ k.key new

instance (k : Comparison) (word new : String) (names : List String) :
    Decidable (k.IsFree word new names) :=
  inferInstanceAs (Decidable (word ∈ names → ∀ y ∈ names, k.key y ≠ k.key new))

/-- **A word may be renamed if its new name is free.** -/
theorem distinct_renamed_iff (hnew : k.key word ≠ k.key new) (h : k.Distinct names) :
    k.Distinct (names.map fun x => if x = word then new else x) ↔ k.IsFree word new names := by
  rw [Distinct, List.map_map, List.nodup_map_iff_inj_on (List.Nodup.of_map _ h)]
  constructor
  · intro hinj hword y hy hkey
    have hne : y ≠ word := fun heq => hnew (heq ▸ hkey)
    refine hne (hinj y hy word hword ?_)
    exact (key_renamed_eq_iff (h.key_ne hy hword hne)).mpr (.inr ⟨rfl, hkey⟩)
  · intro hfree x hx y hy heq
    by_contra hne
    rcases (key_renamed_eq_iff (h.key_ne hx hy hne)).mp heq with ⟨rfl, hkey⟩ | ⟨rfl, hkey⟩
    · exact hfree hx y hy hkey
    · exact hfree hy x hx hkey

end Comparison

end CimStore

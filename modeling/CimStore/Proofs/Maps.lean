import CimStore.SortedMap
import Mathlib.Data.List.Nodup

/-!
# More about sorted maps

* `get?_erase`, `get?_filter`, `get?_mapValues`: what a map answers after entries are dropped or
  changed;
* `eq_of_mem_iff`, `keys_congr`: lists in ascending order are known by their pairs, and maps with
  the same keys list them alike;
* `perm_entries_insert`: the entries after one has been put in;
* `get?_ofList_of_mem`, `perm_entries_ofList`, `ofList_eq_self`: the map of a list with one pair per
  key answers with the pairs of the list and has no others, and a list in ascending order is the
  list of its map;
* `keys_ofList_of_pairwise`: so it is with keys alone.
-/

namespace CimStore.SortedMap

universe u v w

variable {κ : Type u} {α : Type v} {β : Type w} [LT κ]

theorem keys_pairwise (m : SortedMap κ α) : m.keys.Pairwise (· < ·) :=
  List.pairwise_map.mpr m.ascending

theorem keys_nodup [LE κ] [Std.LawfulOrderLT κ] [Std.IsLinearOrder κ] (m : SortedMap κ α) :
    m.keys.Nodup :=
  m.keys_pairwise.imp fun {a b} (h : a < b) (he : a = b) => Std.lt_irrefl (he ▸ h)

theorem entries_mapValues (f : κ → α → β) (m : SortedMap κ α) :
    (m.mapValues f).entries = m.entries.map fun e => (e.1, f e.1 e.2) := by
  show List.filterMap _ _ = _
  rw [← List.filterMap_eq_map]
  rfl

theorem keys_mapValues (f : κ → α → β) (m : SortedMap κ α) : (m.mapValues f).keys = m.keys := by
  rw [keys, entries_mapValues, List.map_map]
  rfl

variable [DecidableEq κ]

theorem contains_iff {m : SortedMap κ α} {k : κ} : m.contains k = true ↔ ∃ v, m.get? k = some v :=
  Option.isSome_iff_exists

/-! ## Dropping and changing entries -/

section Lookup

variable [LE κ] [Std.LawfulOrderLT κ] [Std.IsLinearOrder κ]

theorem mem_keys {m : SortedMap κ α} {k : κ} : k ∈ m.keys ↔ ∃ v, m.get? k = some v := by
  unfold keys
  rw [List.mem_map]
  constructor
  · rintro ⟨e, he, rfl⟩
    exact ⟨e.2, get?_eq_some_iff.mpr he⟩
  · rintro ⟨v, hv⟩
    exact ⟨(k, v), get?_eq_some_iff.mp hv, rfl⟩

@[simp]
theorem get?_erase (m : SortedMap κ α) (k k' : κ) :
    (m.erase k).get? k' = if k' = k then none else m.get? k' := by
  rw [erase, get?_filterMap]
  by_cases h : k' = k
  · simp [h]
  · simp [h]

theorem get?_filter (p : κ → α → Bool) (m : SortedMap κ α) (k : κ) :
    (m.filter p).get? k = (m.get? k).filter (p k) := by
  rw [filter, get?_filterMap]
  cases m.get? k with
  | none => rfl
  | some v => simp [Option.filter]

theorem get?_mapValues (f : κ → α → β) (m : SortedMap κ α) (k : κ) :
    (m.mapValues f).get? k = (m.get? k).map (f k) := by
  rw [mapValues, get?_filterMap, Option.map_eq_bind]
  rfl

theorem mapValues_mapValues {γ : Type} (f : κ → α → β) (g : κ → β → γ) (m : SortedMap κ α) :
    (m.mapValues f).mapValues g = m.mapValues fun k v => g k (f k v) := by
  refine ext_get? fun k => ?_
  rw [get?_mapValues, get?_mapValues, get?_mapValues, Option.map_map]
  rfl

/-- Lists in ascending order that have the same pairs are equal. -/
theorem eq_of_mem_iff {es es' : List (κ × α)} (h : es.Pairwise fun a b => a.1 < b.1)
    (h' : es'.Pairwise fun a b => a.1 < b.1) (hmem : ∀ e, e ∈ es ↔ e ∈ es') : es = es' := by
  have hmaps : (⟨es, h⟩ : SortedMap κ α) = ⟨es', h'⟩ := ext_get? fun k => Option.ext fun v => by
    rw [get?_eq_some_iff, get?_eq_some_iff]
    exact hmem (k, v)
  exact congrArg entries hmaps

/-- Maps that have the same keys list them alike. -/
theorem keys_congr {m : SortedMap κ α} {m' : SortedMap κ β}
    (h : ∀ k, m.contains k = m'.contains k) : m.keys = m'.keys := by
  have hshape : m.mapValues (fun _ _ => ()) = m'.mapValues fun _ _ => () := by
    refine ext_get? fun k => ?_
    have hk : (m.get? k).isSome = (m'.get? k).isSome := h k
    rw [get?_mapValues, get?_mapValues]
    cases hm : m.get? k <;> cases hm' : m'.get? k <;> simp_all
  rw [← keys_mapValues (fun _ _ => ()) m, hshape, keys_mapValues]

end Lookup

/-! ## Maps of lists -/

section OfList

variable [DecidableLT κ] [LE κ] [Std.LawfulOrderLT κ] [Std.IsLinearOrder κ]

@[simp]
theorem get?_insert_self (m : SortedMap κ α) (k : κ) (v : α) : (m.insert k v).get? k = some v := by
  rw [get?_insert, if_pos rfl]

theorem contains_insert {m : SortedMap κ α} {k k' : κ} {v : α} :
    (m.insert k v).contains k' = true ↔ k = k' ∨ m.contains k' = true := by
  rw [contains_iff, contains_iff, get?_insert]
  by_cases h : k = k' <;> simp [h]

private theorem get?_foldl_insert (es : List (κ × α)) (m : SortedMap κ α) (k : κ) :
    (es.foldl (fun m e => m.insert e.1 e.2) m).get? k =
      ((es.reverse.find? (·.1 = k)).map (·.2)).or (m.get? k) := by
  induction es generalizing m with
  | nil => rfl
  | cons e es ih =>
    rw [List.foldl_cons, ih, get?_insert, List.reverse_cons, List.find?_append]
    cases es.reverse.find? (·.1 = k) with
    | some e' => rfl
    | none => by_cases h : e.1 = k <;> simp [h]

/-- Of the pairs with one key the last counts. -/
theorem get?_ofList (es : List (κ × α)) (k : κ) :
    (ofList es).get? k = (es.reverse.find? (·.1 = k)).map (·.2) := by
  rw [ofList, get?_foldl_insert, get?_empty, Option.or_none]

theorem get?_ofList_of_mem {es : List (κ × α)} (h : (es.map (·.1)).Nodup) {k : κ} {v : α}
    (he : (k, v) ∈ es) : (ofList es).get? k = some v := by
  rw [get?_ofList]
  have hmem := List.mem_reverse.mpr he
  have hnodup : (es.reverse.map (·.1)).Nodup := by
    rw [List.map_reverse]
    exact List.nodup_reverse.mpr h
  generalize es.reverse = es at *
  clear h he
  induction es with
  | nil => exact absurd hmem (List.not_mem_nil)
  | cons e es ih =>
    rw [List.map_cons, List.nodup_cons] at hnodup
    rcases List.mem_cons.mp hmem with rfl | hmem
    · simp
    · have hne : e.1 ≠ k := fun heq => hnodup.1 (heq ▸ List.mem_map_of_mem (f := (·.1)) hmem)
      rw [List.find?_cons_of_neg (by simpa using hne)]
      exact ih hmem hnodup.2

theorem mem_of_get?_ofList {es : List (κ × α)} {k : κ} {v : α}
    (h : (ofList es).get? k = some v) : (k, v) ∈ es := by
  rw [get?_ofList, Option.map_eq_some_iff] at h
  obtain ⟨e, he, rfl⟩ := h
  have hk : e.1 = k := by simpa using List.find?_some he
  exact hk ▸ List.mem_reverse.mp (List.mem_of_find?_eq_some he)

/-- A new key adds its pair. -/
theorem perm_entries_insert {m : SortedMap κ α} {k : κ} (h : m.contains k = false) (v : α) :
    (m.insert k v).entries.Perm ((k, v) :: m.entries) := by
  have hnew : ∀ v', (k, v') ∉ m.entries := fun v' hmem => by
    rw [contains_iff.mpr ⟨v', get?_eq_some_iff.mpr hmem⟩] at h
    exact nomatch h
  rw [List.perm_ext_iff_of_nodup (m.insert k v).keys_nodup.of_map
    (List.nodup_cons.mpr ⟨hnew v, m.keys_nodup.of_map⟩)]
  rintro ⟨k', v'⟩
  rw [← get?_eq_some_iff, get?_insert, List.mem_cons, Prod.mk.injEq, ← get?_eq_some_iff]
  by_cases hk : k = k'
  · subst hk
    have hnone : m.get? k ≠ some v' := fun hget => hnew v' (get?_eq_some_iff.mp hget)
    simp [hnone, eq_comm]
  · simp [hk, Ne.symm hk]

/-- The map of a list with one pair per key has the pairs of the list. -/
theorem perm_entries_ofList {es : List (κ × α)} (h : (es.map (·.1)).Nodup) :
    (ofList es).entries.Perm es := by
  rw [List.perm_ext_iff_of_nodup (ofList es).keys_nodup.of_map h.of_map]
  intro e
  rw [← get?_eq_some_iff (k := e.1) (v := e.2)]
  exact ⟨mem_of_get?_ofList, get?_ofList_of_mem h⟩

/-- **A list in ascending order is the list of its map.** -/
theorem ofList_eq_self (m : SortedMap κ α) : ofList m.entries = m := by
  refine ext_get? fun k => Option.ext fun v => ⟨fun h => ?_, fun h => ?_⟩
  · exact get?_eq_some_iff.mpr (mem_of_get?_ofList h)
  · exact get?_ofList_of_mem m.keys_nodup (get?_eq_some_iff.mp h)

/-- Keys in ascending order are the keys of their map. -/
theorem keys_ofList_of_pairwise {ks : List κ} (h : ks.Pairwise (· < ·)) :
    (ofList (ks.map (·, ()))).keys = ks := by
  have hself := ofList_eq_self (⟨ks.map (·, ()), List.pairwise_map.mpr h⟩ : SortedMap κ Unit)
  rw [hself, keys, List.map_map]
  exact List.map_id _

end OfList

end CimStore.SortedMap

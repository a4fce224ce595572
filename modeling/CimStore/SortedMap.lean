/-!
# Maps in ascending key order

A `SortedMap κ α` is a list of key-value pairs whose keys strictly ascend. The list is determined
by what the map answers (`SortedMap.ext_get?`), so two maps that answer alike are equal, and an
order that shows in an answer is the order of the list.

* `insert` replaces or adds one entry (`get?_insert`).
* `filterMap` keeps, changes and drops entries (`get?_filterMap`); `erase`, `filter` and
  `mapValues` are instances of it.
-/

namespace CimStore

universe u v w

/-- A map kept as a list of pairs with strictly ascending keys. -/
structure SortedMap (κ : Type u) (α : Type v) [LT κ] where
  /-- The pairs, in ascending key order. -/
  entries : List (κ × α)
  ascending : entries.Pairwise (fun a b => a.1 < b.1)
deriving DecidableEq

namespace SortedMap

theorem eq_of_not_lt {κ : Type u} [LT κ] [LE κ] [Std.LawfulOrderLT κ] [Std.IsLinearOrder κ]
    {a b : κ} (h₁ : ¬ a < b) (h₂ : ¬ b < a) : a = b :=
  Std.le_antisymm (Std.not_lt.1 h₂) (Std.not_lt.1 h₁)

section Order

variable {κ : Type u} {α : Type v} [LT κ] [DecidableLT κ]

/-- The pairs with `k` bound to `v`: replaced where `k` is, added at its place where it is not. -/
def insertEntry (k : κ) (v : α) : List (κ × α) → List (κ × α)
  | [] => [(k, v)]
  | e :: es =>
    if k < e.1 then (k, v) :: e :: es
    else if e.1 < k then e :: insertEntry k v es
    else (k, v) :: es

theorem mem_insertEntry {k : κ} {v : α} {a : κ × α} {es : List (κ × α)}
    (h : a ∈ insertEntry k v es) : a = (k, v) ∨ a ∈ es := by
  induction es with
  | nil => exact .inl (List.mem_singleton.1 h)
  | cons e es ih =>
    rw [insertEntry] at h
    split at h
    · exact (List.mem_cons.1 h).imp id id
    · split at h
      · rcases List.mem_cons.1 h with rfl | h
        · exact .inr (List.mem_cons_self ..)
        · exact (ih h).imp id (List.mem_cons_of_mem _)
      · exact (List.mem_cons.1 h).imp id (List.mem_cons_of_mem _)

variable [LE κ] [Std.LawfulOrderLT κ] [Std.IsLinearOrder κ]

theorem ascending_insertEntry (k : κ) (v : α) {es : List (κ × α)}
    (h : es.Pairwise (fun a b => a.1 < b.1)) :
    (insertEntry k v es).Pairwise (fun a b => a.1 < b.1) := by
  induction es with
  | nil => exact List.pairwise_singleton ..
  | cons e es ih =>
    obtain ⟨he, hes⟩ := List.pairwise_cons.1 h
    rw [insertEntry]
    split
    · rename_i hlt
      refine List.pairwise_cons.2 ⟨fun a ha => ?_, h⟩
      rcases List.mem_cons.1 ha with rfl | ha
      · exact hlt
      · exact Std.lt_trans hlt (he a ha)
    · split
      · rename_i _ hgt
        refine List.pairwise_cons.2 ⟨fun a ha => ?_, ih hes⟩
        rcases mem_insertEntry ha with rfl | ha
        · exact hgt
        · exact he a ha
      · rename_i h₁ h₂
        obtain rfl := eq_of_not_lt h₁ h₂
        exact List.pairwise_cons.2 ⟨he, hes⟩

end Order

/-! ## Operations -/

section Operations

variable {κ : Type u} {α : Type v} {β : Type w} [LT κ]

def empty : SortedMap κ α := ⟨[], List.Pairwise.nil⟩

instance : EmptyCollection (SortedMap κ α) := ⟨empty⟩

instance : Inhabited (SortedMap κ α) := ⟨empty⟩

/-- The keys, ascending. -/
def keys (m : SortedMap κ α) : List κ := m.entries.map (·.1)

/-- The values, in the order of their keys. -/
def values (m : SortedMap κ α) : List α := m.entries.map (·.2)

def size (m : SortedMap κ α) : Nat := m.entries.length

def isEmpty (m : SortedMap κ α) : Bool := m.entries.isEmpty

/-- The pairs `f` keeps, each with the value `f` gives it. -/
def filterMapEntries (f : κ → α → Option β) (es : List (κ × α)) : List (κ × β) :=
  es.filterMap fun e => (f e.1 e.2).map (e.1, ·)

omit [LT κ] in
theorem key_mem_of_mem_filterMapEntries {f : κ → α → Option β} {es : List (κ × α)} {a : κ × β}
    (h : a ∈ filterMapEntries f es) : ∃ e ∈ es, e.1 = a.1 := by
  obtain ⟨e, he, hf⟩ := List.mem_filterMap.1 h
  obtain ⟨v, -, rfl⟩ := Option.map_eq_some_iff.1 hf
  exact ⟨e, he, rfl⟩

/-- Keeps the entries for which `f` gives a value, with that value. -/
def filterMap (f : κ → α → Option β) (m : SortedMap κ α) : SortedMap κ β where
  entries := filterMapEntries f m.entries
  ascending := by
    obtain ⟨es, h⟩ := m
    induction es with
    | nil => exact List.Pairwise.nil
    | cons e es ih =>
      obtain ⟨he, hes⟩ := List.pairwise_cons.1 h
      rw [filterMapEntries, List.filterMap_cons]
      split
      · exact ih hes
      · rename_i b hb
        obtain ⟨v, -, rfl⟩ := Option.map_eq_some_iff.1 hb
        refine List.pairwise_cons.2 ⟨fun a ha => ?_, ih hes⟩
        obtain ⟨e', he', hk⟩ := key_mem_of_mem_filterMapEntries ha
        exact hk ▸ he e' he'

/-- Keeps the entries that `p` accepts. -/
def filter (p : κ → α → Bool) (m : SortedMap κ α) : SortedMap κ α :=
  m.filterMap fun k v => if p k v then some v else none

/-- Changes every value and no key. -/
def mapValues (f : κ → α → β) (m : SortedMap κ α) : SortedMap κ β :=
  m.filterMap fun k v => some (f k v)

variable [DecidableEq κ]

/-- The value bound to `k`. -/
def get? (m : SortedMap κ α) (k : κ) : Option α :=
  (m.entries.find? (·.1 = k)).map (·.2)

def contains (m : SortedMap κ α) (k : κ) : Bool := (m.get? k).isSome

/-- The map without the key `k`. -/
def erase (m : SortedMap κ α) (k : κ) : SortedMap κ α :=
  m.filterMap fun k' v => if k' = k then none else some v

variable [DecidableLT κ] [LE κ] [Std.LawfulOrderLT κ] [Std.IsLinearOrder κ]

/-- The map with `k` bound to `v`. -/
def insert (m : SortedMap κ α) (k : κ) (v : α) : SortedMap κ α :=
  ⟨insertEntry k v m.entries, ascending_insertEntry k v m.ascending⟩

/-- Applies `f` to what `k` is bound to and binds `k` to the result. -/
def alter (m : SortedMap κ α) (k : κ) (f : Option α → α) : SortedMap κ α :=
  m.insert k (f (m.get? k))

/-- The map of the pairs of a list; of two pairs with one key the later counts. -/
def ofList (es : List (κ × α)) : SortedMap κ α :=
  es.foldl (fun m e => m.insert e.1 e.2) empty

end Operations

/-! ## What a map answers after an operation -/

section Lookup

variable {κ : Type u} {α : Type v} {β : Type w} [LT κ] [DecidableEq κ]

@[simp]
theorem get?_empty (k : κ) : (empty : SortedMap κ α).get? k = none := rfl

theorem get?_eq_some_iff [LE κ] [Std.LawfulOrderLT κ] [Std.IsLinearOrder κ]
    {m : SortedMap κ α} {k : κ} {v : α} : m.get? k = some v ↔ (k, v) ∈ m.entries := by
  obtain ⟨es, h⟩ := m
  show (es.find? (·.1 = k)).map (·.2) = some v ↔ (k, v) ∈ es
  induction es with
  | nil => simp
  | cons e es ih =>
    obtain ⟨he, hes⟩ := List.pairwise_cons.1 h
    by_cases hk : e.1 = k
    · rw [List.find?_cons_of_pos (by simpa using hk)]
      constructor
      · intro hv
        obtain rfl : e.2 = v := by simpa using hv
        exact hk ▸ List.mem_cons_self ..
      · intro hm
        rcases List.mem_cons.1 hm with rfl | hm
        · rfl
        · exact absurd (hk ▸ he _ hm) Std.lt_irrefl
    · rw [List.find?_cons_of_neg (by simpa using hk), ih hes]
      constructor
      · exact List.mem_cons_of_mem _
      · intro hm
        rcases List.mem_cons.1 hm with rfl | hm
        · exact absurd rfl hk
        · exact hm

theorem get?_filterMap [LE κ] [Std.LawfulOrderLT κ] [Std.IsLinearOrder κ]
    (f : κ → α → Option β) (m : SortedMap κ α) (k : κ) :
    (m.filterMap f).get? k = (m.get? k).bind (f k) := by
  apply Option.ext
  intro b
  rw [get?_eq_some_iff, Option.bind_eq_some_iff]
  constructor
  · intro hb
    obtain ⟨⟨k', v⟩, he, hf⟩ := List.mem_filterMap.1 hb
    obtain ⟨b', hb', heq⟩ := Option.map_eq_some_iff.1 hf
    obtain ⟨rfl, rfl⟩ := Prod.mk.inj heq
    exact ⟨v, get?_eq_some_iff.2 he, hb'⟩
  · rintro ⟨v, hv, hb⟩
    exact List.mem_filterMap.2 ⟨(k, v), get?_eq_some_iff.1 hv, by rw [hb]; rfl⟩

theorem get?_insert [DecidableLT κ] [LE κ] [Std.LawfulOrderLT κ] [Std.IsLinearOrder κ]
    (m : SortedMap κ α) (k : κ) (v : α) (k' : κ) :
    (m.insert k v).get? k' = if k = k' then some v else m.get? k' := by
  obtain ⟨es, h⟩ := m
  show ((insertEntry k v es).find? (·.1 = k')).map (·.2) =
    if k = k' then some v else (es.find? (·.1 = k')).map (·.2)
  clear h
  induction es with
  | nil => by_cases hk : k = k' <;> simp [insertEntry, hk]
  | cons e es ih =>
    rw [insertEntry]
    split
    · by_cases hk : k = k' <;> simp [hk]
    · split
      · rename_i _ hgt
        by_cases he : e.1 = k'
        · have hk : k ≠ k' := fun hk => Std.lt_irrefl (hk ▸ he ▸ hgt)
          simp [he, hk]
        · simpa [he] using ih
      · rename_i h₁ h₂
        obtain rfl := eq_of_not_lt h₁ h₂
        by_cases hk : e.1 = k' <;> simp [hk]

/-- Two maps that answer alike are equal. -/
theorem ext_get? [LE κ] [Std.LawfulOrderLT κ] [Std.IsLinearOrder κ] {m₁ m₂ : SortedMap κ α}
    (h : ∀ k, m₁.get? k = m₂.get? k) : m₁ = m₂ := by
  have hmem : ∀ e, e ∈ m₁.entries ↔ e ∈ m₂.entries := fun e => by
    rw [← get?_eq_some_iff (k := e.1) (v := e.2), ← get?_eq_some_iff (k := e.1) (v := e.2), h]
  obtain ⟨es₁, h₁⟩ := m₁
  obtain ⟨es₂, h₂⟩ := m₂
  congr
  clear h
  induction es₁ generalizing es₂ with
  | nil =>
    cases es₂ with
    | nil => rfl
    | cons e es => exact absurd ((hmem e).2 (List.mem_cons_self ..)) (List.not_mem_nil)
  | cons a as ih =>
    cases es₂ with
    | nil => exact absurd ((hmem a).1 (List.mem_cons_self ..)) (List.not_mem_nil)
    | cons b bs =>
      obtain ⟨ha, has⟩ := List.pairwise_cons.1 h₁
      obtain ⟨hb, hbs⟩ := List.pairwise_cons.1 h₂
      obtain rfl : a = b := by
        rcases List.mem_cons.1 ((hmem a).1 (List.mem_cons_self ..)) with hab | hab
        · exact hab
        · rcases List.mem_cons.1 ((hmem b).2 (List.mem_cons_self ..)) with hba | hba
          · exact hba.symm
          · exact absurd (Std.lt_trans (ha b hba) (hb a hab)) Std.lt_irrefl
      congr
      refine ih has bs hbs fun e => ⟨fun he => ?_, fun he => ?_⟩
      · rcases List.mem_cons.1 ((hmem e).1 (List.mem_cons_of_mem _ he)) with rfl | he'
        · exact absurd (ha e he) Std.lt_irrefl
        · exact he'
      · rcases List.mem_cons.1 ((hmem e).2 (List.mem_cons_of_mem _ he)) with rfl | he'
        · exact absurd (hb e he) Std.lt_irrefl
        · exact he'

end Lookup

end SortedMap

end CimStore

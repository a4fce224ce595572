import CimStore.Text.Blank
import CimStore.Text.Cut
import Mathlib.Data.List.DropRight

/-!
# Parts of a text

What trimming and cutting leave of a text, and what they take away:

* `Text.trimChars_eq_iff`: trimming leaves the text that has no blank at either end and differs from
  the given one by blanks around it;
* `Text.afterLast?_eq_some_iff`, `Text.afterLast?_eq_none_iff`: the last of a separating character
  is the one that no other follows;
* `Text.afterLead?_eq_some_iff`: a lead is taken off if the text begins with it;
* `Text.append_cons_eq_append_cons_iff`, `Text.append_cons_inj`: in which ways a text is parted by a
  separating character, and in which one by the first of them;
* `Text.splitAt_append_cons`: a text is split there, and what follows is split again.
-/

namespace CimStore.Text

variable {cs : List Char}

/-! ## Blanks at the ends -/

/-- There is no blank at either end. -/
structure IsTrimmed (cs : List Char) : Prop where
  first : ∀ h : cs ≠ [], isBlank (cs.head h) = false
  last : ∀ h : cs ≠ [], isBlank (cs.getLast h) = false

theorem trimChars_eq_rdropWhile (cs : List Char) :
    trimChars cs = (cs.dropWhile isBlank).rdropWhile isBlank := rfl

theorem isTrimmed_trimChars (cs : List Char) : IsTrimmed (trimChars cs) := by
  rw [trimChars_eq_rdropWhile]
  constructor
  · intro h
    -- What is left begins as what is left after the first step.
    obtain ⟨rest, hrest⟩ := List.rdropWhile_prefix isBlank (cs.dropWhile isBlank)
    have hne : cs.dropWhile isBlank ≠ [] := by
      rw [← hrest]
      exact List.append_ne_nil_of_left_ne_nil h rest
    have hhead : (cs.dropWhile isBlank).head? = some (List.head _ h) := by
      rw [← congrArg List.head? hrest, List.head?_append, List.head?_eq_some_head h]
      rfl
    rw [List.head?_eq_some_head hne, Option.some.injEq] at hhead
    rw [← hhead]
    exact List.head_dropWhile_not isBlank hne
  · intro h
    exact Bool.eq_false_iff.mpr (List.rdropWhile_last_not isBlank _ h)

theorem IsTrimmed.trimChars_eq (h : IsTrimmed cs) : trimChars cs = cs := by
  have hfirst : cs.dropWhile isBlank = cs := by
    rw [List.dropWhile_eq_self_iff]
    intro hl
    rw [← List.head_eq_getElem (List.ne_nil_of_length_pos hl), h.first]
    exact Bool.false_ne_true
  rw [trimChars_eq_rdropWhile, hfirst, List.rdropWhile_eq_self_iff]
  intro hl
  rw [h.last hl]
  exact Bool.false_ne_true

theorem sublist_trimChars (cs : List Char) : (trimChars cs).Sublist cs :=
  (List.rdropWhile_prefix isBlank _).sublist.trans (List.dropWhile_sublist isBlank)

/-- What is put in front of a trimmed text has to be trimmed in front only. -/
theorem IsTrimmed.dropWhile_append (h : IsTrimmed cs) (hne : cs ≠ []) (space : List Char) :
    IsTrimmed (space.dropWhile isBlank ++ cs) := by
  constructor
  · by_cases hspace : space.dropWhile isBlank = []
    · rw [hspace]
      exact h.first
    · intro _
      rw [List.head_append_of_ne_nil hspace]
      exact List.head_dropWhile_not isBlank hspace
  · intro _
    rw [List.getLast_append_of_right_ne_nil _ _ hne]
    exact h.last hne

/-- A text without any blank has none at its ends. -/
theorem isTrimmed_of_forall (h : ∀ c ∈ cs, isBlank c = false) : IsTrimmed cs :=
  ⟨fun hne => h _ (List.head_mem hne), fun hne => h _ (List.getLast_mem hne)⟩

/-- Only the ends of a text are trimmed. -/
theorem trimChars_eq_self (h : ∀ c ∈ cs, isBlank c = false) : trimChars cs = cs :=
  (isTrimmed_of_forall h).trimChars_eq

theorem trimChars_append_left {lead : List Char} (h : ∀ c ∈ lead, isBlank c = true) :
    trimChars (lead ++ cs) = trimChars cs := by
  rw [trimChars_eq_rdropWhile, List.dropWhile_append_of_pos h, trimChars_eq_rdropWhile]

theorem trimChars_append_right {trail : List Char} (h : ∀ c ∈ trail, isBlank c = true) :
    trimChars (cs ++ trail) = trimChars cs := by
  have hend : ∀ ds : List Char, (ds ++ trail).rdropWhile isBlank = ds.rdropWhile isBlank := by
    intro ds
    rw [List.rdropWhile, List.reverse_append,
      List.dropWhile_append_of_pos (by simpa using h), List.rdropWhile]
  rw [trimChars_eq_rdropWhile, trimChars_eq_rdropWhile, List.dropWhile_append]
  split
  · -- There is nothing but blanks.
    rename_i hblank
    rw [List.isEmpty_iff.mp hblank, List.dropWhile_eq_nil_iff.mpr h]
  · exact hend _

/-- **What trimming leaves**: the text between blanks that has no blank at either end. -/
theorem trimChars_eq_iff {core : List Char} : trimChars cs = core ↔ IsTrimmed core ∧
    ∃ lead trail, cs = lead ++ core ++ trail ∧ (∀ c ∈ lead, isBlank c = true) ∧
      ∀ c ∈ trail, isBlank c = true := by
  constructor
  · rintro rfl
    refine ⟨isTrimmed_trimChars cs, cs.takeWhile isBlank, (cs.dropWhile isBlank).rtakeWhile isBlank,
      ?_, fun c hc => List.mem_takeWhile_imp hc, fun c hc => List.mem_rtakeWhile_imp hc⟩
    rw [trimChars_eq_rdropWhile, List.append_assoc, List.rdropWhile_append_rtakeWhile,
      List.takeWhile_append_dropWhile]
  · rintro ⟨hcore, lead, trail, rfl, hlead, htrail⟩
    rw [trimChars_append_right htrail, trimChars_append_left hlead, hcore.trimChars_eq]

/-! ## Behind the last of a character -/

variable {c : Char} {rest : List Char}

theorem afterLast?_eq_none_iff : afterLast? c cs = none ↔ c ∉ cs := by
  induction cs with
  | nil => simp [afterLast?]
  | cons d ds ih =>
    rw [afterLast?]
    cases hrest : afterLast? c ds with
    | some rest =>
      have hmem : c ∈ ds := by
        apply Classical.not_not.mp
        intro hnot
        rw [ih.mpr hnot] at hrest
        exact nomatch hrest
      simp [hmem]
    | none =>
      have hmem : c ∉ ds := ih.mp hrest
      by_cases hd : d = c
      · simp [hd]
      · simp [hd, hmem, Ne.symm hd]

theorem afterLast?_append_cons (before : List Char) (h : c ∉ rest) :
    afterLast? c (before ++ c :: rest) = some rest := by
  induction before with
  | nil => simp [afterLast?, afterLast?_eq_none_iff.mpr h]
  | cons d ds ih => simp [afterLast?, ih]

/-- What stands behind the last `c` has no `c` in it. -/
theorem afterLast?_eq_some_iff :
    afterLast? c cs = some rest ↔ c ∉ rest ∧ ∃ before, cs = before ++ c :: rest := by
  refine ⟨fun h => ?_, ?_⟩
  · induction cs with
    | nil => exact nomatch h
    | cons d ds ih =>
      rw [afterLast?] at h
      cases hds : afterLast? c ds with
      | some rest' =>
        rw [hds] at h
        obtain ⟨hrest, before, rfl⟩ := ih (hds.trans h)
        exact ⟨hrest, d :: before, rfl⟩
      | none =>
        rw [hds] at h
        by_cases hd : d = c
        · obtain rfl : ds = rest := by simpa [hd] using h
          exact ⟨afterLast?_eq_none_iff.mp hds, [], by rw [hd]; rfl⟩
        · simp [hd] at h
  · rintro ⟨hrest, before, rfl⟩
    exact afterLast?_append_cons before hrest

theorem not_mem_of_afterLast?_eq_some (h : afterLast? c cs = some rest) : c ∉ rest :=
  (afterLast?_eq_some_iff.mp h).1

/-! ## Behind a lead -/

/-- A lead is taken off if the text begins with it. -/
theorem afterLead?_eq_some_iff {lead : List Char} :
    afterLead? lead cs = some rest ↔ cs = lead ++ rest := by
  induction lead generalizing cs with
  | nil => simp [afterLead?]
  | cons d ds ih =>
    cases cs with
    | nil => simp [afterLead?]
    | cons c cs =>
      rw [afterLead?]
      by_cases hc : c = d
      · simp [hc, ih]
      · simp [hc]

/-! ## Parted at a character -/

/-- Where a `c` parts a text in two ways, one of the parts goes on to a later `c`. -/
theorem append_cons_eq_append_cons_iff {as bs xs ys : List Char} (hne : as ≠ bs) :
    as ++ c :: xs = bs ++ c :: ys ↔
      (∃ ts, bs = as ++ c :: ts ∧ xs = ts ++ c :: ys) ∨
        ∃ ts, as = bs ++ c :: ts ∧ ys = ts ++ c :: xs := by
  constructor
  · intro h
    rcases List.append_eq_append_iff.mp h with ⟨us, hbs, hus⟩ | ⟨us, has, hus⟩
    · cases us with
      | nil => exact absurd (by simp [hbs]) hne
      | cons u ts =>
        obtain ⟨rfl, hxs⟩ := List.cons.inj hus
        exact .inl ⟨ts, hbs, hxs⟩
    · cases us with
      | nil => exact absurd (by simp [has]) hne
      | cons u ts =>
        obtain ⟨rfl, hys⟩ := List.cons.inj hus
        exact .inr ⟨ts, has, hys⟩
  · rintro (⟨ts, rfl, rfl⟩ | ⟨ts, rfl, rfl⟩) <;> simp

/-- What stands before the first `c`, and what stands behind it, are those of the text. -/
theorem append_cons_inj {as bs xs ys : List Char} (ha : c ∉ as) (hb : c ∉ bs)
    (h : as ++ c :: xs = bs ++ c :: ys) : as = bs ∧ xs = ys := by
  by_cases hne : as = bs
  · subst hne
    exact ⟨rfl, (List.cons.inj (List.append_cancel_left h)).2⟩
  · rcases (append_cons_eq_append_cons_iff hne).mp h with ⟨ts, rfl, -⟩ | ⟨ts, rfl, -⟩
    · exact absurd (List.mem_append_right _ (List.mem_cons_self ..)) hb
    · exact absurd (List.mem_append_right _ (List.mem_cons_self ..)) ha

theorem splitAt_of_not_mem (h : c ∉ cs) : splitAt c cs = [cs] := by
  induction cs with
  | nil => rfl
  | cons d ds ih =>
    rw [List.mem_cons, not_or] at h
    obtain ⟨hd, hds⟩ := h
    simp [splitAt, Ne.symm hd, ih hds]

theorem splitAt_append_cons (h : c ∉ cs) (rest : List Char) :
    splitAt c (cs ++ c :: rest) = cs :: splitAt c rest := by
  induction cs with
  | nil => simp [splitAt]
  | cons d ds ih =>
    rw [List.mem_cons, not_or] at h
    obtain ⟨hd, hds⟩ := h
    simp [splitAt, Ne.symm hd, ih hds]

end CimStore.Text

import CimStore.Batch
import Mathlib.Data.List.Nodup
import Mathlib.Data.List.Perm.Basic

/-!
# Grouping by class

* `pairwise_classesOf`: the classes of a list come in the order in which they first appear;
* `sortByType_eq`: the sorted list has the objects of one class after the other, those of each class
  in the order of the list;
* `spansOf_flatMap`: of batches that stand one after the other each is a span of its own; the spans
  follow each other from the first place to the last (`Span.Tiles`);
* `groupByType_eq`: so there is one batch per class, with the objects of this class.
-/

namespace CimStore

/-! ## The classes of a list -/

theorem mem_classesOf {os : List Object} {t : String} :
    t ∈ classesOf os ↔ ∃ o ∈ os, o.cimType = t := by
  rw [classesOf, List.mem_eraseDups, List.mem_map]

section First

variable {α : Type} [DecidableEq α]

/-- Leaving elements out does not change which of two others comes first. -/
theorem idxOf_filter_lt {p : α → Bool} {a b : α} (ha : p a = true) (hb : p b = true) (as : List α) :
    (as.filter p).idxOf a < (as.filter p).idxOf b ↔ as.idxOf a < as.idxOf b := by
  induction as with
  | nil => simp
  | cons x as ih =>
    by_cases hx : p x = true
    · rw [List.filter_cons_of_pos hx]
      by_cases hxb : x = b
      · subst hxb
        rw [List.idxOf_cons_self, List.idxOf_cons_self]
        simp
      · rw [List.idxOf_cons_ne _ hxb, List.idxOf_cons_ne _ hxb]
        by_cases hxa : x = a
        · subst hxa
          simp
        · rw [List.idxOf_cons_ne _ hxa, List.idxOf_cons_ne _ hxa]
          exact Nat.succ_lt_succ_iff.trans (ih.trans Nat.succ_lt_succ_iff.symm)
    · have hxa : x ≠ a := fun h => hx (h ▸ ha)
      have hxb : x ≠ b := fun h => hx (h ▸ hb)
      rw [List.filter_cons_of_neg hx, ih, List.idxOf_cons_ne _ hxa, List.idxOf_cons_ne _ hxb]
      exact Nat.succ_lt_succ_iff.symm

/-- Without repetitions, elements stand in the order in which they first appear. -/
theorem pairwise_eraseDups (as : List α) :
    as.eraseDups.Pairwise fun a b => as.idxOf a < as.idxOf b := by
  match as with
  | [] => exact List.Pairwise.nil
  | a :: as =>
    rw [List.eraseDups_cons, List.pairwise_cons]
    have hmem : ∀ b ∈ (as.filter fun b => !b == a).eraseDups, a ≠ b ∧ (!b == a) = true := by
      intro b hb
      have hne := (List.mem_filter.mp (List.mem_eraseDups.mp hb)).2
      exact ⟨fun h => by simp [h] at hne, hne⟩
    refine ⟨fun b hb => ?_, (pairwise_eraseDups _).imp_of_mem fun {b c} hb hc hlt => ?_⟩
    · rw [List.idxOf_cons_self, List.idxOf_cons_ne _ (hmem b hb).1]
      exact Nat.succ_pos _
    · rw [idxOf_filter_lt (p := fun b => !b == a) (hmem b hb).2 (hmem c hc).2] at hlt
      rw [List.idxOf_cons_ne _ (hmem b hb).1, List.idxOf_cons_ne _ (hmem c hc).1]
      exact Nat.succ_lt_succ hlt
termination_by as.length
decreasing_by
  exact Nat.lt_succ_of_le (List.length_filter_le ..)

end First

/-- **The classes come in the order in which they first appear.** -/
theorem pairwise_classesOf (os : List Object) : (classesOf os).Pairwise fun t u =>
    (os.map (·.cimType)).idxOf t < (os.map (·.cimType)).idxOf u :=
  pairwise_eraseDups _

theorem nodup_classesOf (os : List Object) : (classesOf os).Nodup :=
  (pairwise_classesOf os).imp fun hlt heq => by rw [heq] at hlt; omega

/-! ## Sorting -/

section Sorting

variable {classes : List String} {o : Object} {os ps qs : List Object}

/-- Objects of classes that come first stay in front. -/
theorem insertByType_append
    (h : ∀ p ∈ ps, classes.idxOf p.cimType < classes.idxOf o.cimType) :
    insertByType classes o (ps ++ qs) = ps ++ insertByType classes o qs := by
  induction ps with
  | nil => rfl
  | cons p ps ih =>
    obtain ⟨hp, hps⟩ := List.forall_mem_cons.mp h
    rw [List.cons_append, insertByType, if_neg (by omega), ih hps, List.cons_append]

/-- An object is put in front of those of its own class and of later ones. -/
theorem insertByType_of_le (h : ∀ p ∈ ps, classes.idxOf o.cimType ≤ classes.idxOf p.cimType) :
    insertByType classes o ps = o :: ps := by
  cases ps with
  | nil => rfl
  | cons p ps => rw [insertByType, if_pos (h p (List.mem_cons_self ..))]

/-- The objects of a class do not change with an object of another class. -/
theorem flatMap_filter_cons (h : o.cimType ∉ classes) :
    (classes.flatMap fun t => (o :: os).filter (·.cimType = t)) =
      classes.flatMap fun t => os.filter (·.cimType = t) := by
  rw [List.flatMap_def, List.flatMap_def]
  refine congrArg _ (List.map_congr_left fun t ht => List.filter_cons_of_neg ?_)
  simpa using fun heq : o.cimType = t => h (heq ▸ ht)

/-- Inserted one after the other, the last one first, objects stand class by class. -/
theorem foldr_insertByType (hnodup : classes.Nodup) (hos : ∀ o ∈ os, o.cimType ∈ classes) :
    os.foldr (insertByType classes) [] =
      classes.flatMap fun t => os.filter (·.cimType = t) := by
  induction os with
  | nil => simp
  | cons o os ih =>
    obtain ⟨ho, hrest⟩ := List.forall_mem_cons.mp hos
    rw [List.foldr_cons, ih hrest]
    -- The place of the object is in front of those of its class.
    obtain ⟨before, after, rfl⟩ := List.append_of_mem ho
    obtain ⟨-, hafter, hdisjoint⟩ := List.nodup_append'.mp hnodup
    have hbefore : o.cimType ∉ before := fun h => hdisjoint h (List.mem_cons_self ..)
    have hrank : ∀ t ∉ before,
        (before ++ o.cimType :: after).idxOf t =
          (o.cimType :: after).idxOf t + before.length := fun t ht => by
      rw [List.idxOf_append_of_notMem ht, Nat.add_comm]
    rw [List.flatMap_append, List.flatMap_append, List.flatMap_cons, List.flatMap_cons,
      flatMap_filter_cons hbefore, flatMap_filter_cons (List.nodup_cons.mp hafter).1,
      List.filter_cons_of_pos (by simp), insertByType_append, insertByType_of_le]
    · rfl
    · intro p hp
      have hp' : p.cimType ∈ o.cimType :: after := by
        rcases List.mem_append.mp hp with hp | hp
        · exact List.mem_cons.mpr (.inl (of_decide_eq_true (List.mem_filter.mp hp).2))
        · obtain ⟨t, ht, hp⟩ := List.mem_flatMap.mp hp
          obtain rfl : p.cimType = t := of_decide_eq_true (List.mem_filter.mp hp).2
          exact List.mem_cons_of_mem _ ht
      rw [hrank _ hbefore, hrank _ fun h => hdisjoint h hp', List.idxOf_cons_self]
      omega
    · intro p hp
      obtain ⟨t, ht, hp⟩ := List.mem_flatMap.mp hp
      obtain rfl : p.cimType = t := of_decide_eq_true (List.mem_filter.mp hp).2
      rw [hrank _ hbefore, List.idxOf_append_of_mem ht, List.idxOf_cons_self]
      have := List.idxOf_lt_length_of_mem ht
      omega

/-- **The sorted list** has one class after the other, in the order in which they first appear, and
the objects of each class in the order of the list. -/
theorem sortByType_eq (os : List Object) :
    sortByType os = (classesOf os).flatMap fun t => os.filter (·.cimType = t) :=
  foldr_insertByType (nodup_classesOf os) fun o ho => mem_classesOf.mpr ⟨o, ho, rfl⟩

theorem perm_insertByType (classes : List String) (o : Object) (ps : List Object) :
    (insertByType classes o ps).Perm (o :: ps) := by
  induction ps with
  | nil => exact List.Perm.refl _
  | cons p ps ih =>
    rw [insertByType]
    split
    · exact List.Perm.refl _
    · exact (ih.cons p).trans (List.Perm.swap ..)

/-- Sorting only moves objects. -/
theorem perm_sortByType (os : List Object) : (sortByType os).Perm os := by
  unfold sortByType
  generalize classesOf os = classes
  induction os with
  | nil => exact List.Perm.refl _
  | cons o os ih => exact (perm_insertByType ..).trans (ih.cons o)

/-- An object is put in front of all those of its own class. -/
theorem filter_insertByType (classes : List String) (o : Object) (ps : List Object) (t : String) :
    (insertByType classes o ps).filter (·.cimType = t) = (o :: ps).filter (·.cimType = t) := by
  induction ps with
  | nil => rfl
  | cons p ps ih =>
    rw [insertByType]
    split
    · rfl
    · rename_i hlt
      have hne : p.cimType ≠ o.cimType := fun heq => hlt (heq ▸ Nat.le_refl _)
      rw [List.filter_cons, ih]
      by_cases hp : p.cimType = t
      · have ho : o.cimType ≠ t := fun ho => hne (hp.trans ho.symm)
        simp [hp, ho]
      · simp [List.filter_cons, hp]

/-- **The sort is stable**: the objects of a class keep their order. -/
theorem filter_sortByType (os : List Object) (t : String) :
    (sortByType os).filter (·.cimType = t) = os.filter (·.cimType = t) := by
  unfold sortByType
  generalize classesOf os = classes
  induction os with
  | nil => rfl
  | cons o os ih =>
    rw [List.foldr_cons, filter_insertByType, List.filter_cons, ih, List.filter_cons]

end Sorting

/-! ## Spans -/

/-- The batches are of different classes, and each has objects of its class only, at least one. -/
structure Batch.Grouped (bs : List Batch) : Prop where
  distinct : (bs.map (·.cimType)).Nodup
  classes : ∀ b ∈ bs, ∀ o ∈ b.objects, o.cimType = b.cimType
  nonempty : ∀ b ∈ bs, b.objects ≠ []

theorem Batch.Grouped.tail {b : Batch} {bs : List Batch} (h : Grouped (b :: bs)) : Grouped bs where
  distinct := (List.nodup_cons.mp h.distinct).2
  classes := fun a ha => h.classes a (List.mem_cons_of_mem _ ha)
  nonempty := fun a ha => h.nonempty a (List.mem_cons_of_mem _ ha)

namespace Span

/-- The spans follow each other from the place `n` to the place `m`, and none is empty. -/
inductive Tiles : Nat → List Span → Nat → Prop
  | nil {n} : Tiles n [] n
  | cons {s ss m} : s.start < s.stop → Tiles s.stop ss m → Tiles s.start (s :: ss) m

/-- The span has the place. -/
def Has (s : Span) (i : Nat) : Prop := s.start ≤ i ∧ i < s.stop

theorem Tiles.start_le {n m : Nat} {ss : List Span} (h : Tiles n ss m) {s : Span} (hs : s ∈ ss) :
    n ≤ s.start := by
  induction h with
  | nil => exact absurd hs List.not_mem_nil
  | cons hlt _ ih =>
    rcases List.mem_cons.mp hs with rfl | hs
    · exact Nat.le_refl _
    · have := ih hs
      omega

/-- **Each place is in one span**: the spans cover all places, and no two of them overlap. -/
theorem Tiles.existsUnique {n m : Nat} {ss : List Span} (h : Tiles n ss m) {i : Nat} (hn : n ≤ i)
    (hm : i < m) : ∃! s, s ∈ ss ∧ s.Has i := by
  induction h with
  | nil => omega
  | cons hlt hrest ih =>
    rename_i s ss m
    by_cases hi : i < s.stop
    · refine ⟨s, ⟨List.mem_cons_self .., hn, hi⟩, ?_⟩
      rintro a ⟨ha, hstart, -⟩
      rcases List.mem_cons.mp ha with rfl | ha
      · rfl
      · have := hrest.start_le ha
        omega
    · obtain ⟨a, ⟨ha, hai⟩, hone⟩ := ih (by omega) hm
      refine ⟨a, ⟨List.mem_cons_of_mem _ ha, hai⟩, ?_⟩
      rintro b ⟨hb, hbi⟩
      rcases List.mem_cons.mp hb with rfl | hb
      · exact absurd hbi.2 hi
      · exact hone b ⟨hb, hbi⟩

/-- An object of the class of the last span lengthens it. -/
theorem add_last {spans : List Span} {o : Object} {start i : Nat} :
    add (spans ++ [⟨o.cimType, start, i⟩]) i o = spans ++ [⟨o.cimType, start, i + 1⟩] := by
  simp [add]

/-- An object of another class begins a span. -/
theorem add_new {spans : List Span} {o : Object} {i : Nat}
    (h : o.cimType ∉ spans.map (·.cimType)) :
    add spans i o = spans ++ [⟨o.cimType, i, i + 1⟩] := by
  unfold add
  split
  · rename_i hlast
    obtain rfl := List.getLast?_eq_none_iff.mp hlast
    rfl
  · rename_i last hlast
    have hmem : last.cimType ∈ spans.map (·.cimType) :=
      List.mem_map_of_mem (List.mem_of_getLast? hlast)
    rw [if_neg fun heq : last.cimType = o.cimType => h (heq ▸ hmem)]

/-- More objects of the class of the last span lengthen it. -/
theorem foldl_last {spans : List Span} {t : String} {os : List Object}
    (hos : ∀ o ∈ os, o.cimType = t) (start i : Nat) :
    (os.zipIdx i).foldl (fun spans e => add spans e.2 e.1) (spans ++ [⟨t, start, i⟩]) =
      spans ++ [⟨t, start, i + os.length⟩] := by
  induction os generalizing i with
  | nil => rfl
  | cons o os ih =>
    obtain ⟨rfl, hrest⟩ := List.forall_mem_cons.mp hos
    rw [List.zipIdx_cons, List.foldl_cons, add_last, ih hrest, List.length_cons]
    simp only [Nat.add_assoc, Nat.add_comm 1]

/-- The spans of batches that stand one after the other, from the place `i` on. -/
def ofBatches (i : Nat) : List Batch → List Span
  | [] => []
  | b :: bs => ⟨b.cimType, i, i + b.objects.length⟩ :: ofBatches (i + b.objects.length) bs

theorem foldl_flatMap {bs : List Batch} (h : Batch.Grouped bs) {spans : List Span}
    (hspans : ∀ t ∈ spans.map (·.cimType), t ∉ bs.map (·.cimType)) (i : Nat) :
    ((bs.flatMap (·.objects)).zipIdx i).foldl (fun spans e => add spans e.2 e.1) spans =
      spans ++ ofBatches i bs := by
  induction bs generalizing spans i with
  | nil => exact (List.append_nil _).symm
  | cons b bs ih =>
    obtain ⟨hnot, -⟩ := List.nodup_cons.mp h.distinct
    have hnew : ∀ t ∈ (spans ++ [(⟨b.cimType, i, i + b.objects.length⟩ : Span)]).map (·.cimType),
        t ∉ bs.map (·.cimType) := by
      intro t ht
      rw [List.map_append, List.mem_append] at ht
      rcases ht with ht | ht
      · exact fun hmem => hspans t ht (List.mem_cons_of_mem _ hmem)
      · obtain rfl : t = b.cimType := by simpa using ht
        exact hnot
    have hb : (b.objects.zipIdx i).foldl (fun spans e => add spans e.2 e.1) spans =
        spans ++ [⟨b.cimType, i, i + b.objects.length⟩] := by
      -- The first object begins the span, the others lengthen it.
      obtain ⟨o, os, hos⟩ := List.exists_cons_of_ne_nil (h.nonempty b (List.mem_cons_self ..))
      have hclasses := h.classes b (List.mem_cons_self ..)
      rw [hos] at hclasses ⊢
      obtain ⟨ho, hrest⟩ := List.forall_mem_cons.mp hclasses
      have hfirst : o.cimType ∉ spans.map (·.cimType) := fun hmem =>
        hspans _ hmem (ho ▸ List.mem_cons_self ..)
      rw [List.zipIdx_cons, List.foldl_cons, add_new hfirst, ho, foldl_last hrest,
        List.length_cons]
      simp only [Nat.add_assoc, Nat.add_comm 1]
    rw [List.flatMap_cons, List.zipIdx_append, List.foldl_append, hb, ih h.tail hnew,
      List.append_assoc]
    rfl

theorem map_cimType_ofBatches (i : Nat) (bs : List Batch) :
    (ofBatches i bs).map (·.cimType) = bs.map (·.cimType) := by
  induction bs generalizing i with
  | nil => rfl
  | cons b bs ih => rw [ofBatches, List.map_cons, List.map_cons, ih]

theorem tiles_ofBatches {bs : List Batch} (h : ∀ b ∈ bs, b.objects ≠ []) (i : Nat) :
    Tiles i (ofBatches i bs) (i + (bs.flatMap (·.objects)).length) := by
  induction bs generalizing i with
  | nil => exact .nil
  | cons b bs ih =>
    obtain ⟨hb, hrest⟩ := List.forall_mem_cons.mp h
    have hpos := List.length_pos_iff.mpr hb
    rw [List.flatMap_cons, List.length_append, ← Nat.add_assoc]
    exact .cons (s := ⟨b.cimType, i, i + b.objects.length⟩) (by simpa using hpos) (ih hrest _)

/-- The objects of the spans are those of the batches. -/
theorem map_extract_ofBatches (front : List Object) (bs : List Batch) :
    (ofBatches front.length bs).map (fun s =>
      (⟨s.cimType, (front ++ bs.flatMap (·.objects)).extract s.start s.stop⟩ : Batch)) = bs := by
  induction bs generalizing front with
  | nil => rfl
  | cons b bs ih =>
    rw [ofBatches, List.map_cons, List.flatMap_cons]
    congr 1
    · simp [List.extract_eq_take_drop]
    · rw [← List.length_append, ← List.append_assoc]
      exact ih _

end Span

theorem spansOf_flatMap {bs : List Batch} (h : Batch.Grouped bs) :
    spansOf (bs.flatMap (·.objects)) = Span.ofBatches 0 bs :=
  Span.foldl_flatMap h (fun _ ht => absurd ht List.not_mem_nil) 0

/-! ## Batches -/

/-- The objects of a class, in the order of the list. -/
def batchOf (os : List Object) (t : String) : Batch := ⟨t, os.filter (·.cimType = t)⟩

theorem grouped_batchOf (os : List Object) :
    Batch.Grouped ((classesOf os).map (batchOf os)) where
  distinct := by
    rw [List.map_map]
    exact (List.map_id (classesOf os)).symm ▸ nodup_classesOf os
  classes := List.forall_mem_map.mpr fun t _ o ho => of_decide_eq_true (List.mem_filter.mp ho).2
  nonempty := List.forall_mem_map.mpr fun t ht => by
    obtain ⟨o, ho, rfl⟩ := mem_classesOf.mp ht
    exact List.ne_nil_of_mem (List.mem_filter.mpr ⟨ho, by simp⟩)

theorem flatMap_batchOf (os : List Object) :
    ((classesOf os).map (batchOf os)).flatMap (·.objects) = sortByType os := by
  rw [List.flatMap_map, sortByType_eq]
  rfl

/-- The spans of the sorted list, one per class. -/
theorem spansOf_sortByType (os : List Object) :
    spansOf (sortByType os) = Span.ofBatches 0 ((classesOf os).map (batchOf os)) := by
  rw [← flatMap_batchOf, spansOf_flatMap (grouped_batchOf os)]

/-- **The spans of the sorted list** are of different classes, and they divide it up. -/
theorem tiles_spansOf_sortByType (os : List Object) :
    Span.Tiles 0 (spansOf (sortByType os)) os.length := by
  have h := Span.tiles_ofBatches (grouped_batchOf os).nonempty 0
  rwa [← spansOf_sortByType, flatMap_batchOf, (perm_sortByType os).length_eq, Nat.zero_add] at h

theorem map_cimType_spansOf_sortByType (os : List Object) :
    (spansOf (sortByType os)).map (·.cimType) = classesOf os := by
  rw [spansOf_sortByType, Span.map_cimType_ofBatches, List.map_map]
  exact List.map_id _

/-- **One batch per class**: in the order in which the classes first appear, each with all objects
of its class, in the order of the list. -/
theorem groupByType_eq (os : List Object) : groupByType os = (classesOf os).map (batchOf os) := by
  rw [groupByType, spansOf_sortByType, ← flatMap_batchOf]
  exact Span.map_extract_ofBatches [] _

theorem grouped_groupByType (os : List Object) : Batch.Grouped (groupByType os) :=
  groupByType_eq os ▸ grouped_batchOf os

theorem flatMap_groupByType (os : List Object) :
    (groupByType os).flatMap (·.objects) = sortByType os := by
  rw [groupByType_eq, flatMap_batchOf]

/-- The batches have the objects of the list. -/
theorem perm_groupByType (os : List Object) :
    ((groupByType os).flatMap (·.objects)).Perm os :=
  flatMap_groupByType os ▸ perm_sortByType os

/-- **Grouping keeps the order within a class.** -/
theorem pairwise_groupByType {R : Object → Object → Prop} {os : List Object} (h : os.Pairwise R) :
    ((groupByType os).flatMap (·.objects)).Pairwise fun a b => a.cimType = b.cimType → R a b := by
  have hsame : os.Pairwise fun a b => a.cimType = b.cimType → R a b :=
    h.imp fun {a b} hab (_ : a.cimType = b.cimType) => hab
  rw [flatMap_groupByType, sortByType_eq, List.pairwise_flatMap]
  refine ⟨fun t _ => hsame.filter _, ?_⟩
  refine (nodup_classesOf os).imp fun {t u} hne a ha b hb heq => absurd ?_ hne
  have hat : a.cimType = t := of_decide_eq_true (List.mem_filter.mp ha).2
  have hbu : b.cimType = u := of_decide_eq_true (List.mem_filter.mp hb).2
  exact hat ▸ hbu ▸ heq

end CimStore

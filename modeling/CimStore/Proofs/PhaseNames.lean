import CimStore.PhaseCode
import CimStore.Proofs.TextParts
import Mathlib.Data.List.Nodup

/-!
# Texts that name a phase code

A code is spelled by its literal, alone or behind the name of the enumeration. What counts of a text
is what stands behind its last mark, blanks at its ends left aside:

* `Text.Leaves`: what trimming a text, and then dropping all up to its last mark, leaves of it;
* `PhaseCode.Spells`: the two spellings of a code. No two codes share one (`Spells.unique`), and no
  spelling differs from another by the case of its letters only (`Spells.eq_of_lower`);
* `PhaseCode.Frames`: a text around a spelling, with blanks and a namespace that ends in a mark;
* `PhaseCode.parses_exactly`: a text is read as the code that what it leaves spells, and these are
  the texts around a spelling.
-/

namespace CimStore

/-! ## What counts of a text -/

namespace Text

/-- `rest` is left of the text when the blanks at its ends are taken off, and then all up to the last
mark if it has one. -/
inductive Leaves : List Char → List Char → Prop
  | unmarked {lead core trail : List Char} (hlead : ∀ c ∈ lead, isBlank c = true)
      (htrail : ∀ c ∈ trail, isBlank c = true) (hcore : IsTrimmed core) (hmark : '#' ∉ core) :
      Leaves (lead ++ core ++ trail) core
  | marked {lead before rest trail : List Char} (hlead : ∀ c ∈ lead, isBlank c = true)
      (htrail : ∀ c ∈ trail, isBlank c = true) (hcore : IsTrimmed (before ++ '#' :: rest))
      (hmark : '#' ∉ rest) : Leaves (lead ++ (before ++ '#' :: rest) ++ trail) rest

theorem leaves_iff {cs rest : List Char} :
    Leaves cs rest ↔ (afterLast? '#' (trimChars cs)).getD (trimChars cs) = rest := by
  constructor
  · rintro (⟨hlead, htrail, hcore, hmark⟩ | ⟨hlead, htrail, hcore, hmark⟩)
    · rw [trimChars_append_right htrail, trimChars_append_left hlead, hcore.trimChars_eq,
        afterLast?_eq_none_iff.mpr hmark, Option.getD_none]
    · rw [trimChars_append_right htrail, trimChars_append_left hlead, hcore.trimChars_eq,
        afterLast?_append_cons _ hmark, Option.getD_some]
  · intro h
    obtain ⟨hcore, lead, trail, hcs, hlead, htrail⟩ := trimChars_eq_iff.mp (Eq.refl (trimChars cs))
    rw [hcs]
    cases hlast : afterLast? '#' (trimChars cs) with
    | none =>
      rw [hlast, Option.getD_none] at h
      subst h
      exact .unmarked hlead htrail hcore (afterLast?_eq_none_iff.mp hlast)
    | some behind =>
      rw [hlast, Option.getD_some] at h
      subst h
      obtain ⟨hmark, before, hbefore⟩ := afterLast?_eq_some_iff.mp hlast
      rw [hbefore] at hcore ⊢
      exact .marked hlead htrail hcore hmark

end Text

namespace PhaseCode

/-! ## Spellings -/

theorem mem_all (p : PhaseCode) : p ∈ all := by
  cases p <;> decide

/-- The characters spell the code. -/
inductive Spells : List Char → PhaseCode → Prop
  | bare (p : PhaseCode) : Spells p.literal.toList p
  | qualified (p : PhaseCode) : Spells p.qualified.toList p

/-- The spellings of all codes. -/
def spellings : List (List Char) :=
  all.flatMap fun p => [p.literal.toList, p.qualified.toList]

theorem Spells.mem_spellings {cs : List Char} {p : PhaseCode} (h : Spells cs p) :
    cs ∈ spellings := by
  unfold spellings
  cases h <;> simpa using ⟨p, mem_all p, by simp⟩

theorem ofLiteral?_eq_some_iff {cs : List Char} {p : PhaseCode} :
    ofLiteral? cs = some p ↔ cs = p.literal.toList := by
  constructor
  · intro h
    simpa [eq_comm] using List.find?_some h
  · rintro rfl
    cases p <;> decide +kernel

/-- What stands in front of a literal in its qualified spelling. -/
def qualifier : List Char := enumName.toList ++ ['.']

theorem toList_qualified (p : PhaseCode) : p.qualified.toList = qualifier ++ p.literal.toList := by
  simp [PhaseCode.qualified, qualifier]

/-- No literal begins as the qualified spellings do. -/
theorem afterLead?_literal (p : PhaseCode) :
    Text.afterLead? qualifier p.literal.toList = none := by
  cases p <;> decide +kernel

/-- **The two spellings are read, and nothing else.** -/
theorem spells_iff {cs : List Char} {p : PhaseCode} :
    Spells cs p ↔ ofLiteral? ((Text.afterLead? qualifier cs).getD cs) = some p := by
  rw [ofLiteral?_eq_some_iff]
  constructor
  · rintro (_ | _)
    · rw [afterLead?_literal, Option.getD_none]
    · rw [Text.afterLead?_eq_some_iff.mpr (toList_qualified p), Option.getD_some]
  · intro h
    cases hlead : Text.afterLead? qualifier cs with
    | none =>
      rw [hlead, Option.getD_none] at h
      exact h ▸ .bare p
    | some literal =>
      rw [hlead, Option.getD_some] at h
      have hcs := Text.afterLead?_eq_some_iff.mp hlead
      rw [h, ← toList_qualified] at hcs
      exact hcs ▸ .qualified p

/-- No two codes share a spelling. -/
theorem Spells.unique {cs : List Char} {p q : PhaseCode} (hp : Spells cs p) (hq : Spells cs q) :
    p = q :=
  Option.some.inj ((spells_iff.mp hp).symm.trans (spells_iff.mp hq))

/-- Neither a blank nor a mark. -/
def isPlain (c : Char) : Bool := !Text.isBlank c && c != '#'

/-- A spelling holds neither a blank nor a mark. -/
theorem Spells.plain {cs : List Char} {p : PhaseCode} (h : Spells cs p) :
    cs ≠ [] ∧ ∀ c ∈ cs, Text.isBlank c = false ∧ c ≠ '#' := by
  have hqualifier : qualifier.all isPlain = true := by decide +kernel
  have hliteral : p.literal.toList ≠ [] ∧ p.literal.toList.all isPlain = true := by
    cases p <;> decide +kernel
  have hplain : cs ≠ [] ∧ cs.all isPlain = true := by
    cases h with
    | bare => exact hliteral
    | qualified =>
      rw [toList_qualified, List.all_append, hqualifier, hliteral.2]
      exact ⟨List.append_ne_nil_of_right_ne_nil _ hliteral.1, rfl⟩
  refine ⟨hplain.1, fun c hc => ?_⟩
  simpa [isPlain] using List.all_eq_true.mp hplain.2 c hc

/-- Spellings that differ by the case of their letters only are equal. -/
theorem Spells.eq_of_lower {cs ds : List Char} {p q : PhaseCode} (hp : Spells cs p)
    (hq : Spells ds q) (h : cs.map Char.toLower = ds.map Char.toLower) : cs = ds := by
  have hnodup : (spellings.map (·.map Char.toLower)).Nodup := by decide +kernel
  exact List.inj_on_of_nodup_map hnodup hp.mem_spellings hq.mem_spellings h

/-- No spelling begins with two qualifiers. -/
theorem Spells.ne_repeated {cs : List Char} {p : PhaseCode} (h : Spells cs p) (tail : List Char) :
    cs ≠ qualifier ++ (qualifier ++ tail) := by
  rintro rfl
  have hread := spells_iff.mp h
  rw [Text.afterLead?_eq_some_iff.mpr rfl, Option.getD_some, ofLiteral?_eq_some_iff] at hread
  have hnone := afterLead?_literal p
  rw [Text.afterLead?_eq_some_iff.mpr hread.symm] at hnone
  exact nomatch hnone

/-- Close to a spelling, but none. -/
inductive Misspells : List Char → Prop
  | repeated (tail : List Char) : Misspells (qualifier ++ (qualifier ++ tail))
  | blank {cs : List Char} {c : Char} (hc : c ∈ cs) (hblank : Text.isBlank c = true) : Misspells cs
  | letterCase {cs ds : List Char} {p : PhaseCode} (hds : Spells ds p) (hne : cs ≠ ds)
      (hlower : cs.map Char.toLower = ds.map Char.toLower) : Misspells cs

theorem Misspells.not_spells {cs : List Char} (h : Misspells cs) (p : PhaseCode) :
    ¬Spells cs p := by
  intro hcs
  cases h with
  | repeated tail => exact hcs.ne_repeated tail rfl
  | blank hc hblank =>
    rw [(hcs.plain.2 _ hc).1] at hblank
    exact nomatch hblank
  | letterCase hds hne hlower => exact hne (hcs.eq_of_lower hds hlower)

/-! ## Texts around a spelling -/

/-- The text has blanks at its ends, and a spelling between them. In front of the spelling there may
be a namespace that ends in a mark. -/
inductive Frames (spelling : List Char) : List Char → Prop
  | padded {lead trail : List Char} (hlead : ∀ c ∈ lead, Text.isBlank c = true)
      (htrail : ∀ c ∈ trail, Text.isBlank c = true) : Frames spelling (lead ++ spelling ++ trail)
  | marked {lead space trail : List Char} (hlead : ∀ c ∈ lead, Text.isBlank c = true)
      (htrail : ∀ c ∈ trail, Text.isBlank c = true) :
      Frames spelling (lead ++ (space ++ '#' :: spelling) ++ trail)

theorem Frames.of_leaves {cs rest : List Char} (h : Text.Leaves cs rest) : Frames rest cs := by
  cases h with
  | unmarked hlead htrail _ _ => exact .padded hlead htrail
  | marked hlead htrail _ _ => exact .marked hlead htrail

/-- What a text around a spelling leaves is the spelling. -/
theorem Spells.leaves {cs spelling : List Char} {p : PhaseCode} (h : Spells spelling p)
    (hcs : Frames spelling cs) : Text.Leaves cs spelling := by
  obtain ⟨hne, hplain⟩ := h.plain
  have hmark : '#' ∉ spelling := fun hmem => (hplain _ hmem).2 rfl
  cases hcs with
  | padded hlead htrail =>
    exact .unmarked hlead htrail (Text.isTrimmed_of_forall fun c hc => (hplain c hc).1) hmark
  | @marked lead space trail hlead htrail =>
    -- Blanks at the beginning of the namespace are trimmed together with those in front of it.
    have hspace : lead ++ (space ++ '#' :: spelling) ++ trail =
        (lead ++ space.takeWhile Text.isBlank) ++
          (space.dropWhile Text.isBlank ++ '#' :: spelling) ++ trail := by
      simp only [List.append_assoc]
      rw [← List.append_assoc (space.takeWhile _), List.takeWhile_append_dropWhile]
    have hlast : Text.IsTrimmed ('#' :: spelling) := by
      refine ⟨fun _ => rfl, fun _ => ?_⟩
      rw [List.getLast_cons hne]
      exact (hplain _ (List.getLast_mem hne)).1
    rw [hspace]
    refine .marked ?_ htrail (hlast.dropWhile_append (List.cons_ne_nil _ _) space) hmark
    intro c hc
    rcases List.mem_append.mp hc with hc | hc
    · exact hlead c hc
    · exact List.mem_takeWhile_imp hc

/-- **Texts are read exactly.** A text is read as a code if what it leaves spells the code, and only
then; so the texts that name the code are those around one of its two spellings. What a text leaves
spells one code at most, and none if it has a second qualifier, a blank or other letter case. -/
theorem parses_exactly (text : String) :
    (∀ p, parse? text = some p ↔ ∃ rest, Text.Leaves text.toList rest ∧ Spells rest p) ∧
    (∀ p, parse? text = some p ↔ ∃ spelling, Spells spelling p ∧ Frames spelling text.toList) ∧
    ∃ rest, Text.Leaves text.toList rest ∧
      (∀ rest', Text.Leaves text.toList rest' → rest' = rest) ∧
      (∀ p q, Spells rest p → Spells rest q → p = q) ∧
      (Misspells rest → parse? text = none) := by
  have hread : ∀ p, parse? text = some p ↔
      ∃ rest, Text.Leaves text.toList rest ∧ Spells rest p := by
    intro p
    simp only [Text.leaves_iff, exists_eq_left']
    exact spells_iff.symm
  refine ⟨hread, fun p => ?_, _, Text.leaves_iff.mpr rfl, fun rest' h => ?_,
    fun p q hp hq => hp.unique hq, fun hmisspells => ?_⟩
  · rw [hread]
    constructor
    · rintro ⟨rest, hleaves, hspells⟩
      exact ⟨rest, hspells, .of_leaves hleaves⟩
    · rintro ⟨spelling, hspells, hframes⟩
      exact ⟨spelling, hspells.leaves hframes, hspells⟩
  · exact (Text.leaves_iff.mp h).symm
  · rw [Option.eq_none_iff_forall_ne_some]
    intro p hp
    obtain ⟨rest, hleaves, hspells⟩ := (hread p).mp hp
    rw [Text.leaves_iff] at hleaves
    exact hmisspells.not_spells p (hleaves ▸ hspells)

/-- A namespace may hold blanks and marks; a blank behind the last mark counts. -/
example : parse? " \t http://a b#c#PhaseCode.s12N \n" = some .s12n ∧ parse? "# ABC" = none ∧
    parse? "PhaseCode.PhaseCode.ABC" = none ∧ parse? "abc" = none := by
  decide +kernel

end PhaseCode

end CimStore

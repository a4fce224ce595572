import CimStore.Proofs.StableIds

/-!
# References after a history of operations

A reference is pointed at an id, linked and cleared, in any order and as often as one likes; a set
of references gets ids and links, and is cleared. What either shows in the end is a function of the
history:

* `Reference.Cells`, `ReferenceSet.Cells`: the id and the link in two cells, each with updates of
  its own. Nothing but the updates keeps the two together;
* `Reference.cells_run`, `ReferenceSet.cells_run`: a history does the same to the cells as to the
  reference;
* `Reference.link?_run_iff`: the link is the last one given, as long as every id set since is its
  own;
* `ReferenceSet.targets_run`, `ReferenceSet.links_run`: the ids and the links of a set in closed
  form, from what was added and linked since the last clear;
* `shows_history`: what both show after any history.
-/

namespace CimStore

/-! ## One target -/

namespace Reference

inductive Op
  | setId (text : String)
  | link (link : Link)
  | clear
deriving DecidableEq

def step (r : Reference) : Op → Reference
  | .setId text => r.setId text
  | .link l => .linked l
  | .clear => .empty

/-- A new reference after a history, the oldest operation first. -/
def run (ops : List Op) : Reference := ops.foldl step .empty

/-- The id that an operation leaves. -/
def Op.target? : Op → Option String
  | .setId text => if normalizeId text = "" then none else some (normalizeId text)
  | .link l => some l.rdfid
  | .clear => none

/-- The operation sets the id of the link once more. -/
def Op.Repeats (l : Link) (op : Op) : Prop :=
  ∃ text, op = .setId text ∧ normalizeId text = l.rdfid ∧ l.rdfid ≠ ""

/-- A reference as two cells, which could hold an id and the link of another. -/
structure Cells where
  target? : Option String
  link? : Option Link
deriving DecidableEq

namespace Cells

def empty : Cells := ⟨none, none⟩

/-- The id is always overwritten; the link is only compared with it. -/
def step (c : Cells) : Op → Cells
  | .setId text =>
    let id := normalizeId text
    if id = "" then empty else ⟨some id, c.link?.filter (·.rdfid = id)⟩
  | .link l => ⟨some l.rdfid, some l⟩
  | .clear => empty

def run (ops : List Op) : Cells := ops.foldl step empty

theorem run_append_singleton (ops : List Op) (op : Op) : run (ops ++ [op]) = (run ops).step op :=
  List.foldl_concat ..

end Cells

def cells (r : Reference) : Cells := ⟨r.target?, r.link?⟩

theorem cells_step (r : Reference) (op : Op) : (r.step op).cells = r.cells.step op := by
  cases op with
  | link l => rfl
  | clear => rfl
  | setId text =>
    by_cases hempty : normalizeId text = ""
    · simp [step, setId, cells, Cells.step, Cells.empty, hempty, target?, link?]
    · cases r with
      | empty => simp [step, setId, cells, Cells.step, hempty, isLinked, target?, link?]
      | unlinked t => simp [step, setId, cells, Cells.step, hempty, isLinked, target?, link?]
      | linked l =>
        by_cases hid : l.rdfid = normalizeId text <;>
          simp [step, setId, cells, Cells.step, Option.filter, hempty, isLinked, target?, link?,
            hid]

theorem cells_run (ops : List Op) : (run ops).cells = Cells.run ops := by
  suffices ∀ r : Reference, (ops.foldl step r).cells = ops.foldl Cells.step r.cells from
    this .empty
  induction ops with
  | nil => exact fun _ => rfl
  | cons op ops ih =>
    intro r
    rw [List.foldl_cons, List.foldl_cons, ih, cells_step]

theorem target?_run (ops : List Op) : (Cells.run ops).target? = ops.getLast?.bind Op.target? := by
  cases ops using List.reverseRecOn with
  | nil => rfl
  | append_singleton ops op =>
    rw [Cells.run_append_singleton, List.getLast?_concat, Option.bind_some]
    cases op with
    | setId text => rw [Cells.step, Op.target?]; split <;> rfl
    | link l => rfl
    | clear => rfl

/-- A link is there after one more operation if the operation makes it, or it was there and its id
is set once more. -/
theorem link?_step_iff {c : Cells} {op : Op} {l : Link} : (c.step op).link? = some l ↔
    op = .link l ∨ c.link? = some l ∧ op.Repeats l := by
  cases op with
  | link l' =>
    show some l' = some l ↔ _
    simp [Op.Repeats]
  | clear =>
    show none = some l ↔ _
    simp [Op.Repeats]
  | setId text =>
    by_cases hempty : normalizeId text = ""
    · simp [Cells.step, Cells.empty, hempty, Op.Repeats]
    · have hid : l.rdfid = normalizeId text ↔ normalizeId text = l.rdfid ∧ l.rdfid ≠ "" :=
        ⟨fun h => ⟨h.symm, h ▸ hempty⟩, fun h => h.1.symm⟩
      simp only [Cells.step, hempty, if_false, Option.filter_eq_some_iff, decide_eq_true_eq, hid,
        Op.Repeats, reduceCtorEq, false_or, Op.setId.injEq, exists_eq_left']

/-- **The link is the last one that was given**, and every operation since has set its id again. -/
theorem link?_run_iff {ops : List Op} {l : Link} : (Cells.run ops).link? = some l ↔
    ∃ pre post, ops = pre ++ .link l :: post ∧ ∀ op ∈ post, op.Repeats l := by
  induction ops using List.reverseRecOn with
  | nil => simp [Cells.run, Cells.empty]
  | append_singleton ops op ih =>
    rw [Cells.run_append_singleton, link?_step_iff, ih]
    constructor
    · rintro (rfl | ⟨⟨pre, post, rfl, hpost⟩, hop⟩)
      · exact ⟨ops, [], rfl, fun _ h => nomatch h⟩
      · refine ⟨pre, post ++ [op], by simp, fun op' hop' => ?_⟩
        rcases List.mem_append.mp hop' with h | h
        · exact hpost op' h
        · exact List.mem_singleton.mp h ▸ hop
    · rintro ⟨pre, post, heq, hpost⟩
      cases post using List.reverseRecOn with
      | nil => exact .inl (List.singleton_inj.mp (List.append_inj_right' heq rfl))
      | append_singleton post op' =>
        rw [← List.cons_append, ← List.append_assoc] at heq
        obtain ⟨rfl, hop⟩ := List.append_inj' heq rfl
        obtain rfl := List.singleton_inj.mp hop
        exact .inr ⟨⟨pre, post, rfl, fun op' h => hpost op' (List.mem_append_left _ h)⟩,
          hpost op (List.mem_append_right _ (List.mem_singleton_self _))⟩

/-- **A link shows up only together with its own id.** -/
theorem target?_of_link?_run {ops : List Op} {l : Link} (h : (Cells.run ops).link? = some l) :
    (Cells.run ops).target? = some l.rdfid := by
  rw [target?_run]
  cases ops using List.reverseRecOn with
  | nil => exact nomatch h
  | append_singleton ops op =>
    rw [Cells.run_append_singleton, link?_step_iff] at h
    rw [List.getLast?_concat, Option.bind_some]
    rcases h with rfl | ⟨-, text, rfl, hid, hne⟩
    · rfl
    · rw [Op.target?, hid, if_neg hne]

theorem link?_setId {r : Reference} {l : Link} (hl : r.link? = some l) (text : String) :
    (r.setId text).link? =
      if normalizeId text = l.rdfid ∧ normalizeId text ≠ "" then some l else none := by
  have hstep : (r.setId text).link? = (r.cells.step (.setId text)).link? :=
    congrArg Cells.link? (cells_step r (.setId text))
  rw [hstep, Cells.step, cells, hl]
  by_cases hempty : normalizeId text = ""
  · simp [hempty, Cells.empty]
  · simp [hempty, Option.filter, eq_comm]

/-- What a reference shows after a history. -/
structure After (ops : List Op) (r : Reference) : Prop where
  /-- Two cells with updates of their own show the same. -/
  cells : r.target? = (Cells.run ops).target? ∧ r.link? = (Cells.run ops).link?
  /-- The id is that of the last operation. -/
  target : r.target? = ops.getLast?.bind Op.target?
  link : ∀ l, r.link? = some l ↔
    ∃ pre post, ops = pre ++ .link l :: post ∧ ∀ op ∈ post, op.Repeats l
  /-- The link is never that of another id. -/
  coherent : ∀ l, (Cells.run ops).link? = some l → (Cells.run ops).target? = some l.rdfid
  /-- The next id keeps the link if it is the same, and drops it otherwise. -/
  setId : ∀ l text, r.link? = some l → (r.setId text).link? =
    if normalizeId text = l.rdfid ∧ normalizeId text ≠ "" then some l else none

theorem after_run (ops : List Op) : After ops (run ops) := by
  have htarget : (run ops).target? = (Cells.run ops).target? :=
    congrArg Cells.target? (cells_run ops)
  have hlink : (run ops).link? = (Cells.run ops).link? := congrArg Cells.link? (cells_run ops)
  exact {
    cells := ⟨htarget, hlink⟩
    target := htarget.trans (target?_run ops)
    link := fun l => by rw [hlink, link?_run_iff]
    coherent := fun l => target?_of_link?_run
    setId := fun l text hl => link?_setId hl text
  }

end Reference

/-! ## Any number of targets -/

namespace ReferenceSet

inductive Op
  | addId (text : String)
  | link (link : Link)
  | clear
deriving DecidableEq

namespace Op

def added? : Op → Option String
  | addId text => some text
  | _ => none

def linked? : Op → Option Link
  | link l => some l
  | _ => none

end Op

def step (s : ReferenceSet) : Op → ReferenceSet
  | .addId text => s.addId text
  | .link l => s.link l
  | .clear => .empty

/-- A new set after a history, the oldest operation first. -/
def run (ops : List Op) : ReferenceSet := ops.foldl step .empty

/-- What has happened since the last clear. -/
def sinceClear (ops : List Op) : List Op := ops.rtakeWhile (· ≠ .clear)

/-- The texts that were added since the last clear. -/
def added (ops : List Op) : List String := (sinceClear ops).filterMap Op.added?

/-- The links that were given since the last clear. -/
def linked (ops : List Op) : List Link := (sinceClear ops).filterMap Op.linked?

/-- A set as two collections: the ids, and the links by their ids. -/
@[ext]
structure Cells where
  targets : SortedMap String Unit
  links : SortedMap String Link
deriving DecidableEq

namespace Cells

def empty : Cells := ⟨SortedMap.empty, SortedMap.empty⟩

/-- An id is added without a look at the links; a link is put into both collections. -/
def step (c : Cells) : Op → Cells
  | .addId text =>
    let id := normalizeId text
    if id = "" then c else { c with targets := c.targets.insert id () }
  | .link l => ⟨c.targets.insert l.rdfid (), c.links.insert l.rdfid l⟩
  | .clear => empty

def run (ops : List Op) : Cells := ops.foldl step empty

theorem run_append_singleton (ops : List Op) (op : Op) : run (ops ++ [op]) = (run ops).step op :=
  List.foldl_concat ..

end Cells

def cells (s : ReferenceSet) : Cells where
  targets := s.members.mapValues fun _ _ => ()
  links := s.members.filterMap fun _ link? => link?

theorem ids_eq (s : ReferenceSet) : s.ids = s.cells.targets.keys :=
  (SortedMap.keys_mapValues ..).symm

theorem links_eq (s : ReferenceSet) : s.links = s.cells.links.values := by
  show (s.members.entries.map (·.2)).filterMap id =
    (s.members.entries.filterMap fun e => e.2.map (e.1, ·)).map (·.2)
  rw [List.filterMap_map, List.map_filterMap]
  congr 1
  funext e
  cases h : e.2 <;> simp [h]

/-- The two collections tell the whole set. -/
theorem cells_injective {s t : ReferenceSet} (h : s.cells = t.cells) : s = t := by
  have hmembers : ∀ id, s.members.get? id = t.members.get? id := fun id => by
    have htargets := congrArg (·.targets.get? id) h
    have hlinks := congrArg (·.links.get? id) h
    simp only [cells, SortedMap.get?_mapValues, SortedMap.get?_filterMap] at htargets hlinks
    cases hs : s.members.get? id <;> cases ht : t.members.get? id <;> simp_all
  obtain ⟨m⟩ := s
  obtain ⟨m'⟩ := t
  exact congrArg mk (SortedMap.ext_get? hmembers)

theorem cells_step (s : ReferenceSet) (op : Op) : (s.step op).cells = s.cells.step op := by
  cases op with
  | clear => rfl
  | link l =>
    have htargets : (s.link l).cells.targets = s.cells.targets.insert l.rdfid () :=
      SortedMap.ext_get? fun id => by
        simp only [cells, ReferenceSet.link, SortedMap.get?_mapValues, SortedMap.get?_insert]
        split <;> rfl
    have hlinks : (s.link l).cells.links = s.cells.links.insert l.rdfid l :=
      SortedMap.ext_get? fun id => by
        simp only [cells, ReferenceSet.link, SortedMap.get?_filterMap, SortedMap.get?_insert]
        split <;> rfl
    show (s.link l).cells = ⟨_, _⟩
    rw [← htargets, ← hlinks]
  | addId text =>
    by_cases hempty : normalizeId text = ""
    · simp [step, addId, Cells.step, hempty]
    · have htargets : (s.addId text).cells.targets =
          s.cells.targets.insert (normalizeId text) () := SortedMap.ext_get? fun id => by
        simp only [cells, SortedMap.get?_mapValues, SortedMap.get?_insert, addId, hempty,
          decide_false, Bool.false_or]
        split
        · rename_i hold
          obtain ⟨v, hv⟩ := SortedMap.contains_iff.mp hold
          split
          · rename_i hid
            rw [← hid, hv, Option.map_some]
          · rfl
        · rw [SortedMap.get?_insert]
          split <;> rfl
      have hlinks : (s.addId text).cells.links = s.cells.links := SortedMap.ext_get? fun id => by
        simp only [cells, SortedMap.get?_filterMap, addId, hempty, decide_false, Bool.false_or]
        split
        · rfl
        · rename_i hnew
          rw [SortedMap.get?_insert]
          split
          · rename_i hid
            rw [← hid, Option.not_isSome_iff_eq_none.mp hnew]
            rfl
          · rfl
      show (s.addId text).cells = if _ then _ else _
      rw [if_neg hempty, ← htargets, ← hlinks]

theorem cells_run (ops : List Op) : (run ops).cells = Cells.run ops := by
  suffices ∀ s : ReferenceSet, (ops.foldl step s).cells = ops.foldl Cells.step s.cells from
    this .empty
  induction ops with
  | nil => exact fun _ => rfl
  | cons op ops ih =>
    intro s
    rw [List.foldl_cons, List.foldl_cons, ih, cells_step]

theorem sinceClear_append_singleton (ops : List Op) (op : Op) :
    sinceClear (ops ++ [op]) = if op = .clear then [] else sinceClear ops ++ [op] := by
  unfold sinceClear
  split
  · rename_i hclear
    exact List.rtakeWhile_concat_neg _ _ _ (by simp [hclear])
  · rename_i hclear
    exact List.rtakeWhile_concat_pos _ _ _ (by simp [hclear])

section Collected

variable (ops : List Op)

@[simp]
theorem added_addId (text : String) : added (ops ++ [.addId text]) = added ops ++ [text] := by
  simp [added, sinceClear_append_singleton, Op.added?]

@[simp]
theorem added_link (l : Link) : added (ops ++ [.link l]) = added ops := by
  simp [added, sinceClear_append_singleton, Op.added?]

@[simp]
theorem linked_addId (text : String) : linked (ops ++ [.addId text]) = linked ops := by
  simp [linked, sinceClear_append_singleton, Op.linked?]

@[simp]
theorem linked_link (l : Link) : linked (ops ++ [.link l]) = linked ops ++ [l] := by
  simp [linked, sinceClear_append_singleton, Op.linked?]

@[simp]
theorem sinceClear_clear : sinceClear (ops ++ [.clear]) = [] := by
  simp [sinceClear_append_singleton]

end Collected

/-- **The ids of a set** are those that were added, without the empty one, and those that were
linked. -/
theorem targets_run {ops : List Op} {t : String} : (Cells.run ops).targets.contains t = true ↔
    (t ≠ "" ∧ ∃ text ∈ added ops, normalizeId text = t) ∨ ∃ l ∈ linked ops, l.rdfid = t := by
  induction ops using List.reverseRecOn with
  | nil => simp [Cells.run, Cells.empty, SortedMap.contains, added, linked, sinceClear]
  | append_singleton ops op ih =>
    rw [Cells.run_append_singleton]
    cases op with
    | clear => simp [Cells.step, Cells.empty, SortedMap.contains, added, linked]
    | link l =>
      simp only [Cells.step, SortedMap.contains_insert, ih, added_link, linked_link,
        List.mem_append, List.mem_singleton, or_and_right, exists_or, exists_eq_left]
      rw [or_comm, or_assoc]
    | addId text =>
      have hnew : (t ≠ "" ∧ ∃ text' ∈ added ops ++ [text], normalizeId text' = t) ↔
          (t ≠ "" ∧ ∃ text' ∈ added ops, normalizeId text' = t) ∨
            t ≠ "" ∧ normalizeId text = t := by
        simp only [List.mem_append, List.mem_singleton, or_and_right, exists_or, exists_eq_left,
          and_or_left]
      rw [added_addId, linked_addId, hnew, or_right_comm, ← ih, Cells.step]
      by_cases hempty : normalizeId text = ""
      · have hnone : ¬(t ≠ "" ∧ normalizeId text = t) := fun h => h.1 (h.2 ▸ hempty)
        rw [if_pos hempty, or_iff_left hnone]
      · have hid : normalizeId text = t ↔ t ≠ "" ∧ normalizeId text = t :=
          ⟨fun h => ⟨h ▸ hempty, h⟩, And.right⟩
        rw [if_neg hempty, SortedMap.contains_insert, ← hid, or_comm]

/-- **The links of a set** are by their ids the last ones that were given. -/
theorem links_run (ops : List Op) :
    (Cells.run ops).links = SortedMap.ofList ((linked ops).map fun l => (l.rdfid, l)) := by
  induction ops using List.reverseRecOn with
  | nil => rfl
  | append_singleton ops op ih =>
    rw [Cells.run_append_singleton]
    cases op with
    | clear => rw [linked, sinceClear_clear]; rfl
    | link l =>
      rw [linked_link, List.map_append, SortedMap.ofList, List.map_singleton, List.foldl_concat]
      exact congrArg (SortedMap.insert · l.rdfid l) ih
    | addId text =>
      rw [linked_addId, ← ih, Cells.step]
      split <;> rfl

theorem get?_links_run (ops : List Op) (id : String) :
    (Cells.run ops).links.get? id = (linked ops).reverse.find? (·.rdfid = id) := by
  rw [links_run, SortedMap.get?_ofList, ← List.map_reverse, List.find?_map, Option.map_map]
  exact Option.map_id'

theorem mem_links_run {ops : List Op} {l : Link} : l ∈ (Cells.run ops).links.values ↔
    ∃ pre post, linked ops = pre ++ l :: post ∧ ∀ l' ∈ post, l'.rdfid ≠ l.rdfid := by
  have hvalues : l ∈ (Cells.run ops).links.values ↔
      ∃ id, (Cells.run ops).links.get? id = some l := by
    simp [SortedMap.values, SortedMap.get?_eq_some_iff]
  simp only [hvalues, get?_links_run, List.find?_eq_some_iff_append, decide_eq_true_eq,
    Bool.not_eq_true', decide_eq_false_iff_not, exists_eq_left']
  constructor
  · rintro ⟨later, earlier, heq, hlater⟩
    refine ⟨earlier.reverse, later.reverse, ?_, fun l' hl' => hlater l' (List.mem_reverse.mp hl')⟩
    rw [← List.reverse_reverse (linked ops), heq]
    simp
  · rintro ⟨pre, post, heq, hpost⟩
    exact ⟨post.reverse, pre.reverse, by simp [heq],
      fun l' hl' => hpost l' (List.mem_reverse.mp hl')⟩

/-- The links are in the order of their ids, no two with the same. -/
theorem links_run_ascending (ops : List Op) :
    ((Cells.run ops).links.values.map Link.rdfid).Pairwise (· < ·) := by
  have hkeys : (Cells.run ops).links.values.map Link.rdfid = (Cells.run ops).links.keys := by
    rw [SortedMap.values, List.map_map, SortedMap.keys]
    refine List.map_congr_left fun e he => ?_
    have hfound := SortedMap.get?_eq_some_iff.mpr he
    rw [get?_links_run] at hfound
    simpa using List.find?_some hfound
  rw [hkeys]
  exact SortedMap.keys_pairwise _

/-- What was added counts as a set of texts, whenever and as often as they came. -/
theorem run_congr {ops ops' : List Op} (hlinked : linked ops = linked ops')
    (hadded : ∀ text, text ∈ added ops ↔ text ∈ added ops') : run ops = run ops' := by
  apply cells_injective
  rw [cells_run, cells_run]
  apply Cells.ext
  · refine SortedMap.ext_get? fun t => ?_
    have hmem : ((Cells.run ops).targets.get? t).isSome =
        ((Cells.run ops').targets.get? t).isSome := by
      rw [Bool.eq_iff_iff]
      exact (targets_run.trans (by simp only [hadded, hlinked])).trans targets_run.symm
    cases h : (Cells.run ops).targets.get? t <;> cases h' : (Cells.run ops').targets.get? t <;>
      simp_all
  · rw [links_run, links_run, hlinked]

/-- What a set shows after a history. -/
structure After (ops : List Op) (s : ReferenceSet) : Prop where
  /-- Two collections with updates of their own show the same. -/
  cells : s.ids = (Cells.run ops).targets.keys ∧ s.links = (Cells.run ops).links.values
  mem_ids : ∀ t, t ∈ s.ids ↔
    (t ≠ "" ∧ ∃ text ∈ added ops, normalizeId text = t) ∨ ∃ l ∈ linked ops, l.rdfid = t
  ids_ascending : s.ids.Pairwise (· < ·)
  /-- The links are the last ones with their ids. -/
  mem_links : ∀ l, l ∈ s.links ↔
    ∃ pre post, linked ops = pre ++ l :: post ∧ ∀ l' ∈ post, l'.rdfid ≠ l.rdfid
  links_ascending : (s.links.map Link.rdfid).Pairwise (· < ·)
  /-- The objects that are linked are members. -/
  linked_mem : ∀ l ∈ s.links, l.rdfid ∈ s.ids

theorem after_run (ops : List Op) : After ops (run ops) := by
  have hids : (run ops).ids = (Cells.run ops).targets.keys := by rw [ids_eq, cells_run]
  have hlinks : (run ops).links = (Cells.run ops).links.values := by rw [links_eq, cells_run]
  have hmem : ∀ t, t ∈ (run ops).ids ↔
      (t ≠ "" ∧ ∃ text ∈ added ops, normalizeId text = t) ∨ ∃ l ∈ linked ops, l.rdfid = t := by
    intro t
    rw [hids, SortedMap.mem_keys, ← SortedMap.contains_iff, targets_run]
  exact {
    cells := ⟨hids, hlinks⟩
    mem_ids := hmem
    ids_ascending := SortedMap.keys_pairwise _
    mem_links := fun l => by rw [hlinks, mem_links_run]
    links_ascending := hlinks ▸ links_run_ascending ops
    linked_mem := fun l hl => by
      rw [hlinks, mem_links_run] at hl
      obtain ⟨pre, post, heq, -⟩ := hl
      exact (hmem l.rdfid).mpr (.inr ⟨l, by simp [heq], rfl⟩)
  }

end ReferenceSet

/-- **What references show after any history.** One reference shows the id of the last operation,
with the link of that very id or none. A set shows the ids that were added or linked since the last
clear, and by its id the last link of each; in which order and how often ids are added makes no
difference. -/
theorem shows_history :
    (∀ ops, Reference.After ops (Reference.run ops)) ∧
    (∀ ops, ReferenceSet.After ops (ReferenceSet.run ops)) ∧
    ∀ ops ops', ReferenceSet.linked ops = ReferenceSet.linked ops' →
      (∀ text, text ∈ ReferenceSet.added ops ↔ text ∈ ReferenceSet.added ops') →
      ReferenceSet.run ops = ReferenceSet.run ops' :=
  ⟨Reference.after_run, ReferenceSet.after_run, fun _ _ => ReferenceSet.run_congr⟩

/-- A reference that was linked to a substation keeps the link when the id is set again with a mark,
and drops it for another id. A set to which two ids are added before or after a link, in either
order and one of them twice, ends up the same. -/
theorem shows_history_substations :
    (Reference.run [.setId "_s2", .link ⟨3, "_s1", "Substation"⟩, .setId " #_s1 "]).link? =
      some ⟨3, "_s1", "Substation"⟩ ∧
    (Reference.run [.link ⟨3, "_s1", "Substation"⟩, .setId "#_s2"]).link? = none ∧
    ReferenceSet.run [.link ⟨1, "_s0", "Substation"⟩, .clear, .addId "_s2",
        .link ⟨3, "_s1", "Substation"⟩, .addId "#_s1", .addId "_s2"] =
      ReferenceSet.run [.addId "#_s1", .link ⟨3, "_s1", "Substation"⟩, .addId "_s2"] := by
  obtain ⟨hone, -, hset⟩ := shows_history
  refine ⟨?_, ?_, hset _ _ (by decide) fun text => ?_⟩
  · refine ((hone _).link _).mpr ⟨[.setId "_s2"], [.setId " #_s1 "], rfl, fun op hop => ?_⟩
    obtain rfl := List.mem_singleton.mp hop
    exact ⟨" #_s1 ", rfl, by decide +kernel, by decide⟩
  · refine ((hone [.link ⟨3, "_s1", "Substation"⟩]).setId _ "#_s2" rfl).trans (if_neg ?_)
    decide +kernel
  · show text ∈ ["_s2", "#_s1", "_s2"] ↔ text ∈ ["#_s1", "_s2"]
    simp only [List.mem_cons, List.not_mem_nil, or_false]
    tauto

end CimStore

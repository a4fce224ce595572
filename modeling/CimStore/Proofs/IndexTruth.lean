import CimStore.Proofs.Relinking

/-!
# What the index says after changes

The index of a graph is made on insertion. Objects are changed in place, also their rdf:IDs, and the
index does not follow:

* `LastAt`: the last place of an rdf:ID among those of the objects, which the index is to give;
* `Graph.Agrees`: whatever looks an rdf:ID up in the index finds the same;
* `Graph.get?_byId`: the objects are handed back by the rdf:IDs that they have now;
* `Graph.Truthful`: the index gives the last object with each rdf:ID, and no other object;
* `Graph.Exact.insert`, `Graph.Exact.set_iff`: an insertion keeps this true; a change keeps it if
  and only if it leaves the rdf:ID, or later objects have the old rdf:ID and the new one;
* `Graph.edited_truthful_iff`: it is true all along if and only if every change is of this kind.
-/

namespace CimStore

/-! ## The last place of an rdf:ID -/

/-- The last place of `r` in the list is `p`. -/
structure LastAt (ids : List String) (r : String) (p : Nat) : Prop where
  here : ids[p]? = some r
  last : ∀ q, ids[q]? = some r → q ≤ p

/-- The list has `r` behind the place `i`. -/
def HasAfter (ids : List String) (i : Nat) (r : String) : Prop := ∃ q, i < q ∧ ids[q]? = some r

section Places

variable {ids : List String} {t t' r : String} {p q i : Nat}

theorem LastAt.unique (hp : LastAt ids r p) (hq : LastAt ids r q) : p = q :=
  Nat.le_antisymm (hq.last p hp.here) (hp.last q hq.here)

/-- The last place of an rdf:ID at the end is the end; the others keep theirs. -/
theorem lastAt_append : LastAt (ids ++ [t]) r p ↔
    if t = r then p = ids.length else LastAt ids r p := by
  have hend : (ids ++ [t])[ids.length]? = some t := by simp
  have hlt : ∀ q : Nat, (ids ++ [t])[q]? = some r → q ≤ ids.length := by
    intro q hq
    have := (List.getElem?_eq_some_iff.mp hq).1
    simp only [List.length_append, List.length_singleton] at this
    omega
  split
  · rename_i ht
    have hlast : LastAt (ids ++ [t]) r ids.length := ⟨ht ▸ hend, hlt⟩
    exact ⟨fun h => h.unique hlast, fun h => h ▸ hlast⟩
  · rename_i ht
    have hsame : ∀ q : Nat, (ids ++ [t])[q]? = some r ↔ ids[q]? = some r := by
      intro q
      rcases Nat.lt_trichotomy q ids.length with hq | rfl | hq
      · rw [List.getElem?_append_left hq]
      · simp [ht]
      · rw [List.getElem?_eq_none (by simp; omega), List.getElem?_eq_none (by omega)]
    constructor
    · exact fun h => ⟨(hsame p).mp h.here, fun q hq => h.last q ((hsame q).mpr hq)⟩
    · exact fun h => ⟨(hsame p).mpr h.here, fun q hq => h.last q ((hsame q).mp hq)⟩

/-- An rdf:ID of the list has a last place. -/
theorem exists_lastAt (hi : ids[i]? = some r) : ∃ p, LastAt ids r p ∧ i ≤ p := by
  induction ids using List.reverseRecOn with
  | nil => exact nomatch hi
  | append_singleton ids t ih =>
    have hlt := (List.getElem?_eq_some_iff.mp hi).1
    rw [List.length_append, List.length_singleton] at hlt
    by_cases ht : t = r
    · exact ⟨ids.length, lastAt_append.mpr (by rw [if_pos ht]), by omega⟩
    · have hlt' : i < ids.length := by
        by_contra hge
        obtain rfl : i = ids.length := by omega
        simp [ht] at hi
      obtain ⟨p, hp, hle⟩ := ih ((List.getElem?_append_left hlt').symm.trans hi)
      exact ⟨p, lastAt_append.mpr (by rwa [if_neg ht]), hle⟩

/-- What happens at a place does not count for an rdf:ID that is not there before or afterwards, nor
for one that the list has behind it. -/
theorem LastAt.set (hlast : LastAt ids r p) (hi : ids[i]? = some t)
    (h : HasAfter ids i r ∨ t ≠ r ∧ t' ≠ r) : LastAt (ids.set i t') r p := by
  have hself : (ids.set i t')[i]? = some t' :=
    List.getElem?_set_self (List.getElem?_eq_some_iff.mp hi).1
  have hp : p ≠ i := by
    rintro rfl
    rcases h with ⟨q, hlt, hq⟩ | ⟨hold, -⟩
    · exact absurd (hlast.last q hq) (by omega)
    · exact hold (Option.some.inj (hi.symm.trans hlast.here))
  refine ⟨(List.getElem?_set_ne hp.symm).trans hlast.here, fun q hq => ?_⟩
  by_cases hqi : q = i
  · subst hqi
    rcases h with ⟨j, hlt, hj⟩ | ⟨-, hnew⟩
    · have := hlast.last j hj
      omega
    · exact absurd (Option.some.inj (hself.symm.trans hq)) hnew
  · exact hlast.last q ((List.getElem?_set_ne (Ne.symm hqi)).symm.trans hq)

theorem lastAt_set (hi : ids[i]? = some t) (h : HasAfter ids i r ∨ t ≠ r ∧ t' ≠ r) :
    LastAt (ids.set i t') r p ↔ LastAt ids r p := by
  refine ⟨fun hlast => ?_, fun hlast => hlast.set hi h⟩
  -- The other way, the change is taken back.
  have hback : (ids.set i t').set i t = ids := by
    obtain ⟨hlt, rfl⟩ := List.getElem?_eq_some_iff.mp hi
    rw [List.set_set, List.set_getElem_self]
  have hself : (ids.set i t')[i]? = some t' :=
    List.getElem?_set_self (List.getElem?_eq_some_iff.mp hi).1
  have h' : HasAfter (ids.set i t') i r ∨ t' ≠ r ∧ t ≠ r := by
    rcases h with ⟨q, hlt, hq⟩ | ⟨hold, hnew⟩
    · exact .inl ⟨q, hlt, (List.getElem?_set_ne (by omega)).trans hq⟩
    · exact .inr ⟨hnew, hold⟩
  rw [← hback]
  exact hlast.set hself h'

end Places

/-! ## What is looked up -/

namespace Graph

variable {g : Graph} {o o' : Object} {r : String} {p i : Nat}

/-- The rdf:IDs that the objects have now, in the order of the objects. -/
def ids (g : Graph) : List String := g.objects.map Object.rdfid

theorem getElem?_ids (g : Graph) (p : Nat) : g.ids[p]? = (g.object? p).map Object.rdfid :=
  List.getElem?_map

theorem ids_insert (g : Graph) (o : Object) : (g.insert o).ids = g.ids ++ [o.rdfid] :=
  List.map_append

theorem ids_set (g : Graph) (i : Nat) (o : Object) : (g.set i o).ids = g.ids.set i o.rdfid :=
  List.map_set

/-- Whatever looks the rdf:ID up in the index finds the same. -/
structure Agrees (g : Graph) (r : String) : Prop where
  contains : g.index.contains r = (g.get? r).isSome
  mem_keys : r ∈ g.index.keys ↔ (g.get? r).isSome = true
  links : g.links.get? r = g.link? r
  link : (g.link? r).isSome = (g.get? r).isSome
  /-- The link names the rdf:ID and leads to the object. -/
  leads : ∀ l, g.link? r = some l →
    l.rdfid = r ∧ g.resolve? l = g.get? r ∧ (g.get? r).map Object.cimType = some l.cimType

theorem link?_eq_some_iff {l : Link} : g.link? r = some l ↔
    ∃ p o, g.index.get? r = some p ∧ g.object? p = some o ∧ l = ⟨p, r, o.cimType⟩ := by
  unfold link?
  constructor
  · intro hl
    obtain ⟨p, hp, hl⟩ := Option.bind_eq_some_iff.mp hl
    obtain ⟨o, ho, hl⟩ := Option.bind_eq_some_iff.mp hl
    exact ⟨p, o, hp, ho, (Option.some.inj hl).symm⟩
  · rintro ⟨p, o, hp, ho, rfl⟩
    simp [hp, ho]

/-- **In every graph that was made by insertions and changes, all agree.** -/
theorem Built.agrees (h : g.Built) (r : String) : g.Agrees r := by
  have hcontains : g.index.contains r = (g.get? r).isSome := by
    have hnone := h.get?_eq_none_iff (t := r)
    cases hget : g.get? r <;> simp_all
  refine ⟨hcontains, ?_, g.get?_links_eq r, ?_, fun l hl => ⟨rdfid_of_link? hl, ?_, ?_⟩⟩
  · rw [SortedMap.mem_keys, ← SortedMap.contains_iff, hcontains]
  · have htype := congrArg Option.isSome (g.map_cimType_link? r)
    rwa [Option.isSome_map, Option.isSome_map] at htype
  · obtain ⟨p, o, hp, -, rfl⟩ := link?_eq_some_iff.mp hl
    simp [resolve?, get?, hp]
  · rw [← g.map_cimType_link? r, hl]
    rfl

/-- **The objects are handed back by the rdf:IDs that they have now**, of several the last. -/
theorem get?_byId (g : Graph) (r : String) (o : Object) :
    g.byId.get? r = some o ↔ ∃ p, LastAt g.ids r p ∧ g.object? p = some o := by
  suffices ∀ os : List Object, (SortedMap.ofList (os.map fun o => (o.rdfid, o))).get? r = some o ↔
      ∃ p, LastAt (os.map Object.rdfid) r p ∧ os[p]? = some o from this g.objects
  intro os
  induction os using List.reverseRecOn with
  | nil => simp [SortedMap.ofList, SortedMap.get?_empty]
  | append_singleton os a ih =>
    have hinsert : SortedMap.ofList ((os ++ [a]).map fun o => (o.rdfid, o)) =
        (SortedMap.ofList (os.map fun o => (o.rdfid, o))).insert a.rdfid a := by
      simp [SortedMap.ofList]
    rw [hinsert, SortedMap.get?_insert, List.map_append, List.map_singleton]
    simp only [lastAt_append]
    by_cases ha : a.rdfid = r
    · simp [ha]
    · simp only [if_neg ha, ih]
      refine exists_congr fun p => and_congr_right fun hp => ?_
      have hlt := (List.getElem?_eq_some_iff.mp hp.here).1
      rw [List.length_map] at hlt
      rw [List.getElem?_append_left hlt]

/-- The index gives the last place of each rdf:ID, and nothing else. -/
def Exact (g : Graph) : Prop := ∀ r p, g.index.get? r = some p ↔ LastAt g.ids r p

/-- **The index tells the truth about an rdf:ID.** -/
structure Truthful (g : Graph) (r : String) : Prop where
  /-- An object is found if and only if an object has the rdf:ID. -/
  found_iff : (g.get? r).isSome = true ↔ ∃ o ∈ g.objects, o.rdfid = r
  /-- It is the last one that has it. -/
  last : ∀ o, g.get? r = some o → ∃ p, LastAt g.ids r p ∧ g.object? p = some o
  link : ∀ l, g.link? r = some l → LastAt g.ids r l.position
  /-- Handed back are the same objects under the same rdf:IDs. -/
  byId : g.byId.get? r = g.get? r
  keys : g.byId.keys = g.index.keys

/-- In an exact index the last object with an rdf:ID is found. -/
theorem Exact.get?_eq_some_iff (hexact : g.Exact) {r : String} {o : Object} :
    g.get? r = some o ↔ ∃ p, LastAt g.ids r p ∧ g.object? p = some o := by
  rw [get?, Option.bind_eq_some_iff]
  exact exists_congr fun p => and_congr_left fun _ => hexact r p

theorem Exact.truthful (hexact : g.Exact) (h : g.Built) (r : String) : g.Truthful r := by
  have hbyId : ∀ r, g.byId.get? r = g.get? r := fun r =>
    Option.ext fun o => (g.get?_byId r o).trans hexact.get?_eq_some_iff.symm
  refine ⟨⟨fun hsome => ?_, ?_⟩, fun o => hexact.get?_eq_some_iff.mp, fun l hl => ?_, hbyId r, ?_⟩
  · obtain ⟨o, ho⟩ := Option.isSome_iff_exists.mp hsome
    obtain ⟨p, hp, hobject⟩ := hexact.get?_eq_some_iff.mp ho
    refine ⟨o, List.mem_of_getElem? hobject, ?_⟩
    have hhere := hp.here
    rwa [getElem?_ids, hobject, Option.map_some, Option.some.injEq] at hhere
  · rintro ⟨o, ho, rfl⟩
    obtain ⟨i, hi⟩ := List.mem_iff_getElem?.mp ho
    have hplace : g.ids[i]? = some o.rdfid := by
      rw [getElem?_ids, object?, hi]
      rfl
    obtain ⟨p, hp, -⟩ := exists_lastAt hplace
    rw [← (h.agrees o.rdfid).contains]
    exact SortedMap.contains_iff.mpr ⟨p, (hexact o.rdfid p).mpr hp⟩
  · obtain ⟨p, o, hp, -, rfl⟩ := link?_eq_some_iff.mp hl
    exact (hexact r p).mp hp
  · refine SortedMap.keys_congr fun t => ?_
    rw [(h.agrees t).contains, ← hbyId t]
    rfl

/-- **The index tells the truth exactly if it gives the last places.** -/
theorem truthful_iff (h : g.Built) : (∀ r, g.Truthful r) ↔ g.Exact := by
  refine ⟨fun ht r p => ?_, fun hexact => hexact.truthful h⟩
  -- What the index gives is linked there, so it is the last place.
  have hgives : ∀ q, g.index.get? r = some q → LastAt g.ids r q := by
    intro q hq
    obtain ⟨o, ho⟩ : ∃ o, g.object? q = some o := ⟨_, List.getElem?_eq_getElem (h.lt_length hq)⟩
    exact (ht r).link _ (link?_eq_some_iff.mpr ⟨q, o, hq, ho, rfl⟩)
  refine ⟨hgives p, fun hp => ?_⟩
  -- An object has the rdf:ID, so one is found.
  obtain ⟨o, ho, hr⟩ := Option.map_eq_some_iff.mp ((g.getElem?_ids p).symm.trans hp.here)
  have hfound := (ht r).found_iff.mpr ⟨o, List.mem_of_getElem? ho, hr⟩
  rw [← (h.agrees r).contains] at hfound
  obtain ⟨q, hq⟩ := SortedMap.contains_iff.mp hfound
  rw [hq, (hgives q hq).unique hp]

/-! ## One call -/

/-- An insertion keeps the index exact. -/
theorem Exact.insert (h : g.Exact) (o : Object) : (g.insert o).Exact := by
  intro r p
  rw [ids_insert, lastAt_append]
  show (g.index.insert o.rdfid g.objects.length).get? r = some p ↔ _
  rw [SortedMap.get?_insert]
  split
  · rw [Option.some.injEq, ids, List.length_map]
    exact eq_comm
  · exact h r p

/-- **A change keeps the index exact if and only if** it leaves the rdf:ID, or later objects have
the old rdf:ID and the new one. -/
theorem Exact.set_iff (h : g.Exact) (ho : g.object? i = some o) : (g.set i o').Exact ↔
    o'.rdfid = o.rdfid ∨ HasAfter g.ids i o.rdfid ∧ HasAfter g.ids i o'.rdfid := by
  have hi : g.ids[i]? = some o.rdfid := by rw [getElem?_ids, ho]; rfl
  have hself : (g.ids.set i o'.rdfid)[i]? = some o'.rdfid :=
    List.getElem?_set_self (List.getElem?_eq_some_iff.mp hi).1
  constructor
  · intro hexact
    by_cases hsame : o'.rdfid = o.rdfid
    · exact .inl hsame
    refine .inr ⟨?_, ?_⟩
    · -- The index still gives the last place of the old rdf:ID.
      obtain ⟨p, hp, hle⟩ := exists_lastAt hi
      have hp' := (hexact o.rdfid p).mp ((h o.rdfid p).mpr hp)
      rw [ids_set] at hp'
      have hne : p ≠ i := by
        rintro rfl
        exact hsame (Option.some.inj (hself.symm.trans hp'.here))
      exact ⟨p, by omega, hp.here⟩
    · -- What is now the last place of the new rdf:ID was so before.
      obtain ⟨p, hp', hle⟩ := exists_lastAt hself
      have hp := (h o'.rdfid p).mp ((hexact o'.rdfid p).mpr (by rwa [ids_set]))
      have hne : p ≠ i := by
        rintro rfl
        exact hsame (Option.some.inj (hp.here.symm.trans hi))
      exact ⟨p, by omega, hp.here⟩
  · intro hcase r p
    rw [ids_set]
    refine (h r p).trans ?_
    rcases hcase with hsame | ⟨hold, hnew⟩
    · rw [hsame]
      obtain ⟨hlt, heq⟩ := List.getElem?_eq_some_iff.mp hi
      rw [← heq, List.set_getElem_self]
    · refine (lastAt_set hi ?_).symm
      by_cases hr : o.rdfid = r
      · exact .inl (hr ▸ hold)
      · by_cases hr' : o'.rdfid = r
        · exact .inl (hr' ▸ hnew)
        · exact .inr ⟨hr, hr'⟩

/-- A call that changes a graph: an insertion, or any change of the object at a position or of the
object that the index gives for an rdf:ID. -/
inductive Edit
  | insert (o : Object)
  | changeAt (position : Nat) (change : Object → Object)
  | change (rdfid : String) (change : Object → Object)

/-- The graph with the object at a position changed, if there is one. -/
def changeAt (g : Graph) (position : Nat) (change : Object → Object) : Graph :=
  match g.object? position with
  | some o => g.set position (change o)
  | none => g

/-- The graph after the call. -/
def edit (g : Graph) : Edit → Graph
  | .insert o => g.insert o
  | .changeAt position change => g.changeAt position change
  | .change rdfid change => (g.index.get? rdfid).elim g fun position => g.changeAt position change

/-- The change leaves the rdf:ID of the object at the position, or later objects have the rdf:ID
from before and that from afterwards. -/
def SparesAt (g : Graph) (position : Nat) (change : Object → Object) : Prop :=
  ∀ o, g.object? position = some o → (change o).rdfid = o.rdfid ∨
    HasAfter g.ids position o.rdfid ∧ HasAfter g.ids position (change o).rdfid

/-- The call is none that the index would have to follow. -/
def Spares (g : Graph) : Edit → Prop
  | .insert _ => True
  | .changeAt position change => g.SparesAt position change
  | .change rdfid change => ∀ position, g.index.get? rdfid = some position →
      g.SparesAt position change

theorem Built.changeAt (h : g.Built) (i : Nat) (f : Object → Object) : (g.changeAt i f).Built := by
  unfold Graph.changeAt
  split
  · exact h.change i _
  · exact h

theorem Built.edit (h : g.Built) (e : Edit) : (g.edit e).Built := by
  cases e with
  | insert o => exact h.insert o
  | changeAt i f => exact h.changeAt i f
  | change r f =>
    show ((g.index.get? r).elim g fun i => g.changeAt i f).Built
    cases g.index.get? r with
    | none => exact h
    | some i => exact h.changeAt i f

theorem Exact.changeAt_iff (h : g.Exact) (f : Object → Object) :
    (g.changeAt i f).Exact ↔ g.SparesAt i f := by
  unfold Graph.changeAt SparesAt
  cases ho : g.object? i with
  | none => simp [h]
  | some o => simpa using h.set_iff ho

/-- **One call keeps the index exact if and only if it is none to follow.** -/
theorem Exact.edit_iff (h : g.Exact) (e : Edit) : (g.edit e).Exact ↔ g.Spares e := by
  cases e with
  | insert o => exact iff_of_true (h.insert o) trivial
  | changeAt i f => exact h.changeAt_iff f
  | change r f =>
    show ((g.index.get? r).elim g fun i => g.changeAt i f).Exact ↔
      ∀ i, g.index.get? r = some i → g.SparesAt i f
    cases g.index.get? r with
    | none => simp [h]
    | some i => simpa using h.changeAt_iff f

/-- Through the rdf:ID that it is found under, an object may keep this rdf:ID only. -/
theorem Exact.spares_change_iff (h : g.Exact) {f : Object → Object} :
    g.Spares (.change r f) ↔ ∀ o, g.get? r = some o → (f o).rdfid = r := by
  show (∀ p, g.index.get? r = some p → g.SparesAt p f) ↔
    ∀ o, (g.index.get? r).bind g.object? = some o → (f o).rdfid = r
  cases hp : g.index.get? r with
  | none => simp
  | some p =>
    have hlast := (h r p).mp hp
    have hnone : ¬HasAfter g.ids p r := by
      rintro ⟨q, hlt, hq⟩
      exact absurd (hlast.last q hq) (by omega)
    have hhere : ∀ o, g.object? p = some o → o.rdfid = r := by
      intro o ho
      have := hlast.here
      rwa [getElem?_ids, ho, Option.map_some, Option.some.injEq] at this
    simp only [Option.some.injEq, forall_eq', Option.bind_some, SparesAt]
    refine forall_congr' fun o => forall_congr' fun ho => ?_
    rw [hhere o ho]
    exact ⟨fun h => h.resolve_right fun h => hnone h.1, .inl⟩

/-! ## Runs -/

/-- A graph after calls, one after the other. -/
def edited (model : Option Int) (es : List Edit) : Graph := es.foldl edit { model }

theorem edited_append (model : Option Int) (es : List Edit) (e : Edit) :
    edited model (es ++ [e]) = (edited model es).edit e :=
  List.foldl_concat ..

theorem built_edited (model : Option Int) (es : List Edit) : (edited model es).Built := by
  induction es using List.reverseRecOn with
  | nil => exact .new model
  | append_singleton es e ih => exact edited_append model es e ▸ ih.edit e

theorem exact_new (model : Option Int) : ({ model } : Graph).Exact := by
  intro r p
  exact iff_of_false (fun h => nomatch h) (fun h => nomatch h.here)

/-- The states of a run are the graphs after its first calls. -/
theorem edited_take_succ (model : Option Int) (es : List Edit) (n : Nat) :
    edited model (es.take (n + 1)) =
      es[n]?.elim (edited model (es.take n)) (edited model (es.take n)).edit := by
  rw [List.take_add_one]
  cases es[n]? with
  | none => simp
  | some e => exact edited_append ..

/-- **What the index tells all along.** In every state of a run of calls, whatever looks an rdf:ID
up in the index finds the same, and the objects are handed back by the rdf:IDs that they have now.
The index tells the truth about every rdf:ID in every state if and only if no call of the run
changes an rdf:ID in a way that the index would have to follow. -/
theorem edited_truthful_iff (model : Option Int) (es : List Edit) :
    (∀ n r, (edited model (es.take n)).Agrees r ∧
      ∀ o, (edited model (es.take n)).byId.get? r = some o ↔
        ∃ p, LastAt (edited model (es.take n)).ids r p ∧
          (edited model (es.take n)).object? p = some o) ∧
    ((∀ n r, (edited model (es.take n)).Truthful r) ↔
      ∀ n e, es[n]? = some e → (edited model (es.take n)).Spares e) := by
  refine ⟨fun n r => ⟨(built_edited model _).agrees r, get?_byId _ r⟩, ?_⟩
  simp only [truthful_iff (built_edited model _)]
  constructor
  · intro hall n e he
    have hafter := hall (n + 1)
    rw [edited_take_succ, he] at hafter
    exact ((hall n).edit_iff e).mp hafter
  · intro hspares n
    induction n with
    | zero => exact exact_new model
    | succ n ih =>
      rw [edited_take_succ]
      cases he : es[n]? with
      | none => exact ih
      | some e => exact (ih.edit_iff e).mpr (hspares n e he)

/-- A busbar is inserted and gets another rdf:ID. -/
def renamedBusbar : List Edit :=
  [.insert (SmallGrid.object .busbarSection "_b1" []),
    .change "_b1" fun o => { o with rdfid := "_b2" }]

/-- Of two busbars with one rdf:ID the first gets that of a later one. -/
def renamedTwin : List Edit :=
  [.insert (SmallGrid.object .busbarSection "_b1" []),
    .insert (SmallGrid.object .busbarSection "_b1" []),
    .insert (SmallGrid.object .busbarSection "_b2" []),
    .changeAt 0 fun o => { o with rdfid := "_b2" }]

/-- The first run leaves a busbar that is not found under its rdf:ID but under the one from before,
while it is handed back under its own. The second run leaves the index true. -/
theorem edited_truthful_iff_busbars :
    ((edited none renamedBusbar).ids = ["_b2"] ∧ (edited none renamedBusbar).index.keys = ["_b1"] ∧
      (edited none renamedBusbar).byId.keys = ["_b2"] ∧
      (edited none renamedBusbar).get? "_b2" = none ∧
      ((edited none renamedBusbar).get? "_b1").map (·.rdfid) = some "_b2") ∧
    ¬(∀ n r, (edited none (renamedBusbar.take n)).Truthful r) ∧
    ∀ n r, (edited none (renamedTwin.take n)).Truthful r := by
  refine ⟨by decide +kernel, fun hall => ?_, (edited_truthful_iff none renamedTwin).2.mpr ?_⟩
  · have hspares := (edited_truthful_iff none renamedBusbar).2.mp hall 1 _ rfl
    have hexact := (truthful_iff (built_edited none (renamedBusbar.take 1))).mp (hall 1)
    have hfound : ((edited none (renamedBusbar.take 1)).get? "_b1").isSome = true := by
      decide +kernel
    obtain ⟨o, ho⟩ := Option.isSome_iff_exists.mp hfound
    have hkept : "_b2" = "_b1" := hexact.spares_change_iff.mp hspares o ho
    exact absurd hkept (by decide)
  · intro n e he
    match n, he with
    | 0, he | 1, he | 2, he =>
      obtain rfl := Option.some.inj he
      exact trivial
    | 3, he =>
      obtain rfl := Option.some.inj he
      intro o ho
      have hids : (edited none (renamedTwin.take 3)).ids = ["_b1", "_b1", "_b2"] := by
        decide +kernel
      have hfirst := getElem?_ids (edited none (renamedTwin.take 3)) 0
      rw [hids, ho] at hfirst
      rw [hids, ← Option.some.inj hfirst]
      exact .inr ⟨⟨1, by decide, rfl⟩, ⟨2, by decide, rfl⟩⟩

end Graph

end CimStore

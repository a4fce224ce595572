import CimStore.Proofs.Orphans
import CimStore.Proofs.Overwriting

/-!
# Saves of a model that fail

Saving a model can fail while its row, its objects or its queue of deletions is being worked on:

* `Database.StoresAll.placed`: an object that is given an id is stored under it, and stays listed
  there whatever is stored after it;
* `Service.Survives` says what a failed save makes of one object of the collection;
* `Service.Reachable.saveModel_error`: the collection and the queue survive a failed save.

Ids that objects and the queue carry are taken at their word. So a queue that names an id which the
store has not given yet can delete the row of an object that is given it in the same call.
-/

namespace CimStore

namespace Database

variable {k : Catalog} {db db' : Database} {model : Int} {os os' : List Object}

/-- The object was new and has got the id `i`, larger than all before. It is listed there, and
loaded unless one of the objects `os` came with this id. -/
structure Places (k : Catalog) (db : Database) (model : Int) (os : List Object) (db' : Database)
    (o' : Object) (i : Int) : Prop where
  new : db.lastObject < i ∧ i ≤ db'.lastObject
  listed : (i, o'.cimType) ∈ db'.objectsOf model
  loaded : (∀ a ∈ os, a.id ≠ some i) → db'.object? k i = some (o'.reloaded i o'.rdfid model)

/-- What the model stores stays listed when one more object is stored into it, also under an id that
is in use. -/
theorem Stores.mem_objectsOf {o : Object} {id : Int} (hs : db.Stores o model id db')
    {e : Int × String} (he : e ∈ db.objectsOf model) : e ∈ db'.objectsOf model := by
  obtain ⟨st, hst, hmodel, htype⟩ := Database.mem_objectsOf.mp he
  apply Database.mem_objectsOf.mpr
  rw [hs.get?_objects]
  by_cases hid : id = e.1
  · refine ⟨_, if_pos hid, overwrite_model .., ?_⟩
    rw [overwrite_cimType, hid, hst]
    exact htype
  · exact ⟨st, (if_neg hid).trans hst, hmodel, htype⟩

/-- An object that comes without an id is stored under the next one. -/
theorem Stores.places {o : Object} {id : Int} (hs : db.Stores o model id db') (hk : k.Storable)
    (h : db.Sound k) (ho : k.get? o.cls.name = some o.cls) (hnew : o.id = none) :
    Places k db model [] db' { o with id := some id } id := by
  obtain rfl : id = db.lastObject + 1 := by
    rcases hs.id_eq with hid | ⟨-, hid⟩
    · exact nomatch hnew.symm.trans hid
    · exact hid
  have hnone : db.objects.get? (db.lastObject + 1) = none := by
    by_contra hsome
    obtain ⟨st, hst⟩ := Option.ne_none_iff_exists'.mp hsome
    have hle := h.object_le hst
    omega
  have hst := hs.get?_objects (db.lastObject + 1)
  rw [if_pos rfl, hnone] at hst
  have htype : (overwrite none o model).cimType = o.cimType := overwrite_cimType ..
  refine ⟨⟨by omega, ?_⟩, Database.mem_objectsOf.mpr ⟨_, hst, overwrite_model .., htype⟩, ?_⟩
  · rw [hs.lastObject]
    exact Int.le_max_right ..
  · intro _
    have hrow : (overwrite none o model).rows.get? o.cls.name = some o.row :=
      (get?_rows_overwrite ..).trans (if_pos rfl)
    rw [object?_eq hk hst ho htype hrow, overwrite_rdfid, overwrite_model]
    rfl

namespace StoresAll

theorem sound (h : StoresAll k model db os os' db') (hs : db.Sound k) : db'.Sound k := by
  induction h with
  | nil => exact hs
  | cons hstores ho _ ih => exact ih (hs.stores hstores ho)

theorem mem_objectsOf_of_mem (h : StoresAll k model db os os' db') {e : Int × String}
    (he : e ∈ db.objectsOf model) : e ∈ db'.objectsOf model := by
  induction h with
  | nil => exact he
  | cons hs _ _ ih => exact ih (hs.mem_objectsOf he)

/-- **Every object that comes without an id is placed under a new one.** -/
theorem placed (h : StoresAll k model db os os' db') (hk : k.Storable) (hs : db.Sound k) :
    List.Forall₂ (fun o o' => o.SavedAs model o' ∧
      (o.id = none → ∀ i, o'.id = some i → Places k db model os db' o' i)) os os' := by
  induction h with
  | nil => exact .nil
  | cons hstores ho hrest ih =>
    rename_i db db₁ db' o os os' id
    have hsound := hs.stores hstores ho
    have hlast := hstores.lastObject
    refine .cons ⟨⟨id, by rw [← hstores.model_eq], hstores.id_eq.imp_right And.left⟩, ?_⟩ ?_
    · intro hnew i hi
      obtain rfl : id = i := Option.some.inj hi
      have hplaces := hstores.places hk hs ho hnew
      refine ⟨⟨hplaces.new.1, hplaces.new.2.trans hrest.lastObject_le⟩,
        hrest.mem_objectsOf_of_mem hplaces.listed, fun hother => ?_⟩
      -- No later object is saved under the id: the others came with other ids, or get larger ones.
      obtain ⟨st, hst, -⟩ := Database.mem_objectsOf.mp hplaces.listed
      have hframe := hrest.get?_of_not_mem (hrest.id_ne_of_get? hsound.object_le hst fun a ha =>
        hother a (List.mem_cons_of_mem _ ha))
      rw [object?_congr hframe]
      exact hplaces.loaded (by simp)
    · refine (ih hsound).imp fun a a' ⟨hsaved, hplaces⟩ => ⟨hsaved, fun hnew i hi => ?_⟩
      obtain ⟨hlt, hlisted, hloaded⟩ := hplaces hnew i hi
      exact ⟨by omega, hlisted, fun hother =>
        hloaded fun b hb => hother b (List.mem_cons_of_mem _ hb)⟩

end StoresAll

end Database

/-- A list that is a permutation of an image is the image of a permutation. -/
theorem exists_perm_map {α β : Type} {f : α → β} {as : List α} {bs : List β}
    (h : bs.Perm (as.map f)) : ∃ cs : List α, cs.Perm as ∧ cs.map f = bs := by
  have hcomp : Relation.Comp (List.Forall₂ fun a b => f a = b) List.Perm as bs :=
    ⟨as.map f, List.forall₂_map_right_iff.mpr (List.forall₂_same.mpr fun _ _ => rfl), h.symm⟩
  rw [List.forall₂_comp_perm_eq_perm_comp_forall₂] at hcomp
  obtain ⟨cs, hperm, hmap⟩ := hcomp
  refine ⟨cs, hperm.symm, ?_⟩
  rwa [← List.forall₂_map_left_iff (R := Eq), List.forall₂_eq_eq_eq] at hmap

namespace Service

variable {k : Catalog} {s s' : Service}

/-- What becomes of an object `o` of the collection of `m` in a save that fails: it is `o'` then,
in the collection of `m'`. -/
structure Survives (s s' : Service) (m m' : Model) (o o' : Object) : Prop where
  cls : o'.cls = o.cls
  rdfid : o'.rdfid = o.rdfid
  fields : o'.fields = o.fields
  /-- An id that it had stays. -/
  id : ∀ i, o.id = some i → o'.id = some i
  /-- An id that it has got is larger than all before. The object is listed under it in the model,
  unless the queue names it, and found there as it is, unless the collection had the id. -/
  new : o.id = none → ∀ i, o'.id = some i →
    s.store.db.lastObject < i ∧ i ≤ s'.store.db.lastObject ∧
    ∃ model, m'.id = some model ∧ (⟨o'.cimType, i⟩ ∉ m.orphans →
      (i, o'.cimType) ∈ s'.store.findObjects model ∧
      ((∀ a ∈ m.objects, a.id ≠ some i) → s'.Finds model i (o'.reloaded i o'.rdfid model)))

/-- An object that was not saved is what it was, but for its model. -/
theorem Survives.unsaved {m m' : Model} {o o' : Object} {model : Int}
    (h : o.giveTo model = o'.giveTo model) : Survives s s' m m' o o' := by
  have hid : (o.giveTo model).id = (o'.giveTo model).id := by rw [h]
  have hfields : (o.giveTo model).fields = (o'.giveTo model).fields := by rw [h]
  have hcls : (o.giveTo model).cls = (o'.giveTo model).cls := by rw [h]
  have hrdfid : (o.giveTo model).rdfid = (o'.giveTo model).rdfid := by rw [h]
  exact ⟨hcls.symm, hrdfid.symm, hfields.symm, fun i hi => hid.symm.trans hi,
    fun hnone i hi => nomatch hnone.symm.trans (hid.trans hi)⟩

/-- An object that was saved is found where it was placed, if what has been deleted since was
queued. -/
theorem Survives.saved (hk : k.Storable) (h' : s'.store.Sound k) {m m' : Model} {o o' : Object}
    {model : Int} {os : List Object} {db : Database} {done : List (String × List Int)}
    (hsaved : (o.giveTo model).SavedAs model o')
    (hplaces : o.id = none → ∀ i, o'.id = some i →
      Database.Places k (s.store.db.nameModel model m.name) model os db o' i)
    (hid : m'.id = some model) (hdb : s'.store.db = db.dropAll done)
    (hdone : ∀ b ∈ done, b ∈ (orphansByType m.orphans).entries)
    (hos : ∀ i, (∃ a ∈ os, a.id = some i) → ∃ a ∈ m.objects, a.id = some i) :
    Survives s s' m m' o o' := by
  obtain ⟨j, rfl, hj⟩ := hsaved
  refine ⟨rfl, rfl, rfl, fun i hi => ?_, fun hnew i hi => ?_⟩
  · rcases hj with hold | hnone
    · exact hold.symm.trans hi
    · exact nomatch hnone.symm.trans hi
  · obtain ⟨⟨hlt, hle⟩, hlisted, hloaded⟩ := hplaces hnew i hi
    have hshrinks := Database.Shrinks.dropAll db done
    refine ⟨hlt, ?_, model, hid, fun hqueued => ?_⟩
    · rw [hdb, hshrinks.lastObject]
      exact hle
    have hkept : ∀ b ∈ done, ¬(b.1 = o.cimType ∧ i ∈ b.2) := fun b hb hnamed =>
      hqueued (mem_orphansByType.mp ⟨b, hdone b hb, hnamed⟩)
    refine ⟨?_, fun hother => (finds_iff h' hk).mpr ⟨?_, rfl⟩⟩
    · show _ ∈ s'.store.db.objectsOf model
      rw [hdb]
      exact Database.mem_objectsOf_dropAll.mpr ⟨hlisted, hkept⟩
    · have hnone : ∀ a ∈ os, a.id ≠ some i := fun a ha hai => by
        obtain ⟨b, hb, hbi⟩ := hos i ⟨a, ha, hai⟩
        exact hother b hb hbi
      rw [hdb, Database.object?_dropAll hk, hloaded hnone]
      exact Option.filter_some_pos (decide_eq_true hkept)

/-- **A failed save of a model loses nothing of it.** The collection is put in another order, its
objects keep what they had, and the queue stays as it is. -/
theorem Reachable.saveModel_error (hk : k.Storable) (hs : Reachable k s) {m m' : Model} {e : Error}
    (hsave : saveModel m s = ((m', .error e), s')) :
    m'.orphans = m.orphans ∧ m'.name = m.name ∧
      ∃ os, os.Perm m.objects ∧ List.Forall₂ (Survives s s' m m') os m'.objects := by
  have h := hs.sound hk
  have h' : s'.store.Sound k := by
    have := Keeps.saveModel (Store.invariant_sound hk) m s h
    rwa [hsave] at this
  rcases saveModel_spec hk h.classes hsave with ⟨-, -, rfl, -⟩ | ⟨model, pre, pre', post, post', db,
    done, rest, -, hid, hname, hperm, hobjects, hpost, hall, hqueue, hstore, hcase⟩
  · exact ⟨rfl, rfl, _, .refl _, List.forall₂_same.mpr fun o _ =>
      .unsaved (show o.giveTo 0 = o.giveTo 0 from rfl)⟩
  have horphans : m'.orphans = m.orphans := by
    rcases hcase with ⟨-, horphans, -⟩ | ⟨hok, -⟩
    · exact horphans
    · exact nomatch hok
  obtain ⟨os, hos, hmap⟩ := exists_perm_map hperm
  refine ⟨horphans, hname, os, hos, ?_⟩
  -- The given objects first: those that were saved, then the others.
  have hids : ∀ i, (∃ a ∈ pre.map (·.giveTo model), a.id = some i) →
      ∃ a ∈ m.objects, a.id = some i := by
    rintro i ⟨a, ha, hai⟩
    obtain ⟨b, hb, rfl⟩ := List.mem_map.mp ha
    obtain ⟨c, hc, rfl⟩ := List.mem_map.mp (hperm.mem_iff.mp (List.mem_append_left post hb))
    exact ⟨c, hc, hai⟩
  have hpre : List.Forall₂ (Survives s s' m m') pre pre' := by
    refine (List.forall₂_map_left_iff.mp (hall.placed hk (h.db.nameModel ..))).imp ?_
    rintro o o' ⟨hsaved, hplaces⟩
    exact .saved hk h' hsaved hplaces hid (congrArg Store.db hstore)
      (fun b hb => hqueue ▸ List.mem_append_left rest hb) hids
  have hpost : List.Forall₂ (Survives s s' m m') post post' := by
    have heq : List.Forall₂ Eq (post.map (·.giveTo model)) (post'.map (·.giveTo model)) := by
      rw [List.forall₂_eq_eq_eq, hpost]
    rw [List.forall₂_map_left_iff, List.forall₂_map_right_iff] at heq
    exact heq.imp fun _ _ => .unsaved
  have hgiven : List.Forall₂ (Survives s s' m m') (os.map (·.giveTo model)) m'.objects := by
    rw [hmap, hobjects]
    exact List.rel_append hpre hpost
  refine (List.forall₂_map_left_iff.mp hgiven).imp fun o o' hsurvives => ?_
  exact ⟨hsurvives.cls, hsurvives.rdfid, hsurvives.fields, hsurvives.id, hsurvives.new⟩

/-- A new model of two busbars with one rdf:ID, and with a terminal to delete. -/
def twins : Model :=
  { name := some "grid", objects := [SmallGrid.busbar, SmallGrid.busbar],
    orphans := [⟨"Terminal", 9⟩] }

/-- The first busbar is saved and found, the second is not saved, and the terminal stays queued. -/
theorem Reachable.saveModel_error_twins : ∃ m' s' x,
    saveModel twins (.opened .standard) = ((m', .error (.storage .duplicateIdentity)), s') ∧
      m'.objects.map (·.id) = [some 1, none] ∧ m'.orphans = [⟨"Terminal", 9⟩] ∧
      Finds s' 1 1 x ∧ x.rdfid = "_b" := by
  rcases hsave : saveModel twins (.opened .standard) with ⟨⟨m', r⟩, s'⟩
  have hr : (saveModel twins (.opened .standard)).1.2 =
      .error (.storage .duplicateIdentity) := by decide +kernel
  have hids : (saveModel twins (.opened .standard)).1.1.objects.map (·.id) = [some 1, none] := by
    decide +kernel
  have hid : (saveModel twins (.opened .standard)).1.1.id = some 1 := by decide +kernel
  rw [hsave] at hr hids hid
  obtain rfl : r = _ := hr
  obtain ⟨horphans, -, os, hperm, hall⟩ :=
    Reachable.saveModel_error Catalog.standard_storable (Reachable.opened .standard) hsave
  obtain rfl : os = [SmallGrid.busbar, SmallGrid.busbar] :=
    List.perm_replicate.mp (show os.Perm (List.replicate 2 SmallGrid.busbar) from hperm)
  refine ⟨m', s', ?_⟩
  obtain ⟨o', rest, hfirst, -, hobjects⟩ := List.forall₂_cons_left_iff.mp hall
  rw [hobjects] at hids
  obtain ⟨-, -, model, hmodel, hnew⟩ := hfirst.new rfl 1 (List.cons.inj hids).1
  obtain rfl : 1 = model := Option.some.inj (hid.symm.trans hmodel)
  have hqueue : ⟨o'.cimType, 1⟩ ∉ twins.orphans := by
    rw [Object.cimType, hfirst.cls]
    decide
  exact ⟨_, rfl, hobjects ▸ hids, horphans, (hnew hqueue).2 (by decide), hfirst.rdfid⟩

/-- A catalog of one class. -/
def busbarsOnly : Catalog := .ofClasses [.busbarSection]

/-- A busbar and a terminal that another store has given ids. -/
def elsewhere : List Object :=
  [{ SmallGrid.busbar with rdfid := "_x", id := some 1 },
    { SmallGrid.object .terminal "_t" [] with id := some 9 }]

/-- A new model that has had the two objects, has given them up and has a busbar of its own. -/
def foreignQueue : Model :=
  (["_x", "_t"].foldl (fun m rdfid => ((m.remove rdfid).map (·.2)).getD m)
    (elsewhere.foldl Model.add (.named "grid"))).add SmallGrid.busbar

/-- A new model of a busbar of its own, the one from elsewhere and one with the rdf:ID of that. -/
def foreignObject : Model :=
  [SmallGrid.busbar, { SmallGrid.busbar with rdfid := "_x", id := some 1 },
    { SmallGrid.busbar with rdfid := "_x" }].foldl Model.add (.named "grid")

/-- The busbar is given an id that the queue names, and is deleted again before the deletion of the
terminal fails; or it is given an id that an object came with, and that one is saved over it. -/
theorem saveModel_error_foreign : (opened busbarsOnly).Reachable busbarsOnly ∧
    (∃ m' s', saveModel foreignQueue (opened busbarsOnly) =
        ((m', .error (.unknownClass "Terminal")), s') ∧
      foreignQueue.objects.map (·.id) = [none] ∧ m'.objects.map (·.id) = [some 1] ∧
      s'.store.db.objects.get? 1 = none) ∧
    ∃ m' s', saveModel foreignObject (opened busbarsOnly) =
        ((m', .error (.storage .duplicateIdentity)), s') ∧
      foreignObject.objects.map (·.id) = [none, some 1, none] ∧
      m'.objects.map (·.id) = [some 1, some 1, none] ∧
      (s'.store.db.objects.get? 1).map (·.rdfid) = some "_x" := by
  have hqueue : (saveModel foreignQueue (opened busbarsOnly)).1.2 =
      .error (.unknownClass "Terminal") := by decide +kernel
  have hobject : (saveModel foreignObject (opened busbarsOnly)).1.2 =
      .error (.storage .duplicateIdentity) := by decide +kernel
  refine ⟨Reachable.opened _, ⟨_, _, by rw [← hqueue]; rfl, ?_⟩, _, _, by rw [← hobject]; rfl, ?_⟩
  · exact ⟨by decide +kernel, by decide +kernel, by decide +kernel⟩
  · exact ⟨by decide +kernel, by decide +kernel, by decide +kernel⟩

end Service

end CimStore

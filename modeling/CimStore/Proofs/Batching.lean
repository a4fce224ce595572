import CimStore.Proofs.Saving

/-!
# The calls that saving makes

Whatever a directory does, saving objects calls it once for the model and then once per class.

* `Directory.recorded`: a directory with a record of the calls made to it;
* `Directory.Sends`: batches are handed to a directory in order, up to the first that it refuses;
* `Directory.saveObjects_calls`: the batches are one per class, in the order in which the classes
  first appear, and those that are handed back make up the result;
* `Service.handsBack_directory`: the store hands objects back as they were but for their ids.
-/

namespace CimStore

/-- The batch with its objects given to a model. -/
def Batch.giveTo (model : Int) (b : Batch) : Batch :=
  { b with objects := b.objects.map (·.giveTo model) }

namespace Directory

variable {σ : Type}

/-- A call to a directory. -/
inductive Call
  | saveModel (m : Model)
  | saveBatch (cimType : String) (objects : List Object)
deriving DecidableEq

/-- The call that saves the batch. -/
def Call.save (b : Batch) : Call := .saveBatch b.cimType b.objects

/-- The directory with a record of the calls made to it. -/
def recorded (d : Directory σ) : Directory (σ × List Call) where
  saveModel m := fun (s, calls) =>
    let (r, s) := d.saveModel m s
    (r, s, calls ++ [.saveModel m])
  saveBatch cimType os := fun (s, calls) =>
    let (r, s) := d.saveBatch cimType os s
    (r, s, calls ++ [.saveBatch cimType os])

/-- The batches are handed to the directory in order, up to the first that it refuses: those in
`made`, for which the directory hands back `replies`. -/
inductive Sends (d : Directory σ) : σ → List Batch → (made : List Batch) →
    (replies : List (List Object)) → Except Error Unit → σ → Prop
  | done {s} : Sends d s [] [] [] (.ok ()) s
  | refused {s s' b bs os e} : d.saveBatch b.cimType b.objects s = ((os, .error e), s') →
      Sends d s (b :: bs) [b] [os] (.error e) s'
  | saved {s s₁ s' b bs made os replies r} :
      d.saveBatch b.cimType b.objects s = ((os, .ok ()), s₁) →
      Sends d s₁ bs made replies r s' → Sends d s (b :: bs) (b :: made) (os :: replies) r s'

/-- The objects of a batch that is saved are handed back in order, each as it was but for a new id
if it had none. -/
def HandsBack (d : Directory σ) : Prop :=
  ∀ {cimType os s os' s'}, d.saveBatch cimType os s = ((os', .ok ()), s') →
    List.Forall₂ (fun o o' => ∃ id, o' = { o with id := some id } ∧
      (o.id = some id ∨ o.id = none)) os os'

variable {d : Directory σ}

namespace Sends

variable {s s' : σ} {bs made : List Batch} {replies : List (List Object)} {r : Except Error Unit}

theorem made_prefix (h : d.Sends s bs made replies r s') : made <+: bs := by
  induction h with
  | done => exact List.prefix_refl _
  | refused _ => exact ⟨_, rfl⟩
  | saved _ _ ih => exact List.cons_prefix_cons.mpr ⟨rfl, ih⟩

/-- Without an error all batches are handed over. -/
theorem made_eq (h : d.Sends s bs made replies r s') (hr : r = .ok ()) : made = bs := by
  induction h with
  | done => rfl
  | refused _ => exact nomatch hr
  | saved _ _ ih => rw [ih hr]

/-- Without an error the objects handed back are those of the batches, with their ids. -/
theorem savedAs (h : d.Sends s (bs.map (Batch.giveTo model)) made replies r s')
    (hd : d.HandsBack) (hr : r = .ok ()) :
    List.Forall₂ (Object.SavedAs model) (bs.flatMap (·.objects)) replies.flatten := by
  induction bs generalizing s made replies with
  | nil =>
    cases h
    exact .nil
  | cons b bs ih =>
    cases h with
    | refused _ => exact nomatch hr
    | saved hb hrest =>
      rw [List.flatMap_cons, List.flatten_cons]
      refine List.rel_append ?_ (ih hrest)
      refine (List.forall₂_map_left_iff.mp (hd hb)).imp ?_
      rintro o _ ⟨id, rfl, hid⟩
      exact ⟨id, rfl, hid⟩

end Sends

/-- **Batches are handed over in order**, up to the first that fails. A record of the calls has them
in this order, and changes nothing else. -/
theorem saveBatches_calls (d : Directory σ) (model : Int) (bs : List Batch) (s : σ)
    (calls : List Call) : ∃ os made replies r s',
      d.Sends s (bs.map (Batch.giveTo model)) made replies r s' ∧
      (r = .ok () → os = replies.flatten) ∧
      d.saveBatches model bs s = ((os, r), s') ∧
      d.recorded.saveBatches model bs (s, calls) = ((os, r), s', calls ++ made.map .save) := by
  induction bs generalizing s calls with
  | nil =>
    refine ⟨[], [], [], .ok (), s, .done, fun _ => rfl, rfl, ?_⟩
    rw [List.map_nil, List.append_nil]
    rfl
  | cons b bs ih =>
    rcases hb : d.saveBatch b.cimType (b.objects.map (·.giveTo model)) s with ⟨⟨os, r⟩, s₁⟩
    have hrec : d.recorded.saveBatch b.cimType (b.objects.map (·.giveTo model)) (s, calls) =
        ((os, r), s₁, calls ++ [.save (b.giveTo model)]) := by
      show ((d.saveBatch _ _ s).1, (d.saveBatch _ _ s).2, _) = _
      rw [hb]
      rfl
    cases r with
    | error e =>
      refine ⟨os ++ bs.flatMap (·.objects), _, _, .error e, s₁, .refused hb,
        (fun h => nomatch h), ?_, ?_⟩
      · rw [saveBatches, bind_eq hb]
        rfl
      · rw [saveBatches, bind_eq hrec]
        rfl
    | ok _ =>
      obtain ⟨rest, made, replies, r, s', hsends, hflat, hrest, hrest'⟩ :=
        ih s₁ (calls ++ [.save (b.giveTo model)])
      refine ⟨os ++ rest, _, _, r, s', .saved hb hsends, fun hr => ?_, ?_, ?_⟩
      · rw [List.flatten_cons, hflat hr]
      · rw [saveBatches, bind_eq hb]
        show (d.saveBatches model bs >>= _) _ = _
        rw [bind_eq hrest]
        rfl
      · rw [saveBatches, bind_eq hrec]
        show (d.recorded.saveBatches model bs >>= _) _ = _
        rw [bind_eq hrest', ← List.append_cons]
        rfl

/-- The batches that objects are saved in: one per class, each with all objects of its class, given
to the model. -/
def classBatches (model : Int) (os : List Object) : List Batch :=
  (classesOf os).map fun t => ⟨t, (os.filter (·.cimType = t)).map (·.giveTo model)⟩

theorem map_giveTo_groupByType (model : Int) (os : List Object) :
    (groupByType os).map (Batch.giveTo model) = classBatches model os := by
  rw [groupByType_eq, List.map_map]
  rfl

/-- **One batch per class.** Whatever the objects and whatever the directory does, saving objects
first stores the model. If that fails no other call is made. If not, one batch after the other is
saved, one per class, in the order in which the classes first appear, with all objects of the class
and no others, in the order of the list and given to the model; the first that fails is the last
call. Without an error all batches are saved, and the result is what the directory handed back for
them: if it hands objects back as they were, that is the list sorted by class, with ids.

The sort only moves objects and keeps the order within a class. The spans of the sorted list follow
each other and divide it up, and they are of different classes. -/
theorem saveObjects_calls (d : Directory σ) (m : Model) (os : List Object) (s : σ) :
    (∃ r s' calls, d.saveObjects m os s = (r, s') ∧
      d.recorded.saveObjects m os (s, []) = (r, s', calls) ∧
      ((∃ e, d.saveModel m s = (.error e, s') ∧ r = (m, .error e) ∧ calls = [.saveModel m]) ∨
        ∃ id s₁ made replies result, d.saveModel m s = (.ok id, s₁) ∧
          r = (m.setId id, result.map fun () => replies.flatten) ∧
          calls = .saveModel m :: made.map .save ∧
          d.Sends s₁ (classBatches id os) made replies result s' ∧
          made <+: classBatches id os ∧ (result = .ok () → made = classBatches id os) ∧
          (d.HandsBack → result = .ok () →
            List.Forall₂ (Object.SavedAs id) (sortByType os) replies.flatten))) ∧
      (∀ t, t ∈ classesOf os ↔ ∃ o ∈ os, o.cimType = t) ∧
      ((classesOf os).Pairwise fun t u =>
        (os.map (·.cimType)).idxOf t < (os.map (·.cimType)).idxOf u) ∧
      (sortByType os).Perm os ∧
      (∀ t, (sortByType os).filter (·.cimType = t) = os.filter (·.cimType = t)) ∧
      Span.Tiles 0 (spansOf (sortByType os)) os.length ∧
      (∀ i < os.length, ∃! a, a ∈ spansOf (sortByType os) ∧ a.Has i) ∧
      ((spansOf (sortByType os)).map (·.cimType)).Nodup := by
  have htiles := tiles_spansOf_sortByType os
  refine ⟨?_, fun t => mem_classesOf, pairwise_classesOf os, perm_sortByType os,
    filter_sortByType os, htiles, fun i hi => htiles.existsUnique (Nat.zero_le i) hi, ?_⟩
  swap
  · rw [map_cimType_spansOf_sortByType]
    exact nodup_classesOf os
  rcases hmodel : d.saveModel m s with ⟨r, s₁⟩
  have hrec : d.recorded.saveModel m (s, []) = (r, s₁, [.saveModel m]) := by
    show ((d.saveModel m s).1, (d.saveModel m s).2, _) = _
    rw [hmodel]
    rfl
  cases r with
  | error e =>
    have hpersist : d.persist m s = ((m, .error e), s₁) := bind_eq hmodel
    have hpersist' : d.recorded.persist m (s, []) = ((m, .error e), s₁, [.saveModel m]) :=
      bind_eq hrec
    refine ⟨(m, .error e), s₁, [.saveModel m], ?_, ?_, .inl ⟨e, rfl, rfl, rfl⟩⟩
    · rw [saveObjects, bind_eq hpersist]
      rfl
    · rw [saveObjects, bind_eq hpersist']
      rfl
  | ok id =>
    have hpersist : d.persist m s = ((m.setId id, .ok id), s₁) := bind_eq hmodel
    have hpersist' : d.recorded.persist m (s, []) = ((m.setId id, .ok id), s₁, [.saveModel m]) :=
      bind_eq hrec
    obtain ⟨saved, made, replies, result, s', hsends, hflat, hsave, hsave'⟩ :=
      d.saveBatches_calls id (groupByType os) s₁ [.saveModel m]
    have hresult : result.map (fun () => saved) = result.map fun () => replies.flatten := by
      cases result with
      | error e => rfl
      | ok _ => rw [hflat rfl]
    refine ⟨(m.setId id, result.map fun () => replies.flatten), s', .saveModel m :: made.map .save,
      ?_, ?_, .inr ⟨id, s₁, made, replies, result, rfl, rfl, rfl, ?_⟩⟩
    · rw [saveObjects, bind_eq hpersist, ← hresult]
      show (d.saveBatches id (groupByType os) >>= _) _ = _
      rw [bind_eq hsave]
      rfl
    · rw [saveObjects, bind_eq hpersist', ← hresult]
      show (d.recorded.saveBatches id (groupByType os) >>= _) _ = _
      rw [bind_eq hsave']
      rfl
    · rw [← map_giveTo_groupByType]
      refine ⟨hsends, hsends.made_prefix, hsends.made_eq, fun hd hok => ?_⟩
      rw [← flatMap_groupByType]
      exact hsends.savedAs hd hok

end Directory

/-! ## The store as a directory -/

namespace Store

/-- A batch that is saved is handed back with ids. -/
theorem saveAll_handsBack {c : CimClass} {db : Database} {os : List Object}
    (h : (saveAll c db os).result = .ok ()) :
    List.Forall₂ (fun o o' => ∃ id, o' = { o with id := some id } ∧
      (o.id = some id ∨ o.id = none)) os (saveAll c db os).objects := by
  induction os generalizing db with
  | nil => exact .nil
  | cons o os ih =>
    rcases db.save_cases c o with ⟨e, hsave⟩ | ⟨model, id, db', hsave, -, hs⟩
    · simp only [saveAll, hsave] at h
      exact nomatch h
    · simp only [saveAll, hsave] at h ⊢
      exact .cons ⟨id, rfl, hs.id_eq.imp_right And.left⟩ (ih h)

end Store

namespace Service

/-- **The store hands objects back** as they were but for their ids. -/
theorem handsBack_directory : directory.HandsBack := by
  intro cimType os s os' s' h
  rcases hbatch : s.store.saveBatch cimType os with ⟨out, st⟩
  have hnoted : directory.saveBatch cimType os s = (out, { s with
      store := st, calls := s.calls ++ [.saveBatch cimType (os.map (·.rdfid))] }) := by
    show ((s.store.saveBatch cimType os).1, { s with
      store := (s.store.saveBatch cimType os).2, calls := _ }) = _
    rw [hbatch]
  obtain ⟨rfl, -⟩ := Prod.mk.inj (hnoted.symm.trans h)
  unfold Store.saveBatch at hbatch
  split at hbatch
  · cases hbatch
  · rename_i c hfind
    obtain ⟨hout, -⟩ := Prod.mk.inj hbatch
    obtain ⟨rfl, hok⟩ := Prod.mk.inj hout
    exact Store.saveAll_handsBack hok

end Service

namespace SmallGrid

/-- A busbar between two lines. -/
def mixed : List Object :=
  [object .acLineSegment "_l1" [], object .busbarSection "_b1" [], object .acLineSegment "_l2" []]

/-- The lines in one batch and the busbar in another. -/
def mixedBatches : List Batch :=
  [⟨"ACLineSegment", [(object .acLineSegment "_l1" []).giveTo 1,
    (object .acLineSegment "_l2" []).giveTo 1]⟩,
  ⟨"BusbarSection", [(object .busbarSection "_b1" []).giveTo 1]⟩]

end SmallGrid

/-- Both lines are saved with one call, and the busbar with another one after it. -/
theorem Directory.saveObjects_calls_mixed : ∃ m saved s',
    Service.directory.recorded.saveObjects (.named "grid") SmallGrid.mixed
        (.opened .standard, []) =
      ((m, .ok saved), s', .saveModel (.named "grid") :: SmallGrid.mixedBatches.map .save) ∧
    List.Forall₂ (Object.SavedAs 1) (sortByType SmallGrid.mixed) saved := by
  have hbatches : classBatches 1 SmallGrid.mixed = SmallGrid.mixedBatches := by decide +kernel
  have hmodel : (Service.directory.saveModel (.named "grid") (.opened .standard)).1 = .ok 1 := by
    decide +kernel
  have hok : (Service.directory.saveObjects (.named "grid") SmallGrid.mixed
      (.opened .standard)).1.2.isOk = true := by decide +kernel
  obtain ⟨⟨r, s', calls, hsave, hrec, hcases⟩, -⟩ :=
    Service.directory.saveObjects_calls (.named "grid") SmallGrid.mixed (.opened .standard)
  rw [hsave] at hok
  rcases hcases with ⟨e, -, rfl, -⟩ |
    ⟨id, s₁, made, replies, result, hid, rfl, rfl, -, -, hmade, hback⟩
  · exact nomatch hok
  · rw [hid] at hmodel
    obtain rfl := Except.ok.inj hmodel
    cases result with
    | error e => exact nomatch hok
    | ok _ =>
      rw [hmade rfl, hbatches] at hrec
      exact ⟨_, _, s', hrec, hback Service.handsBack_directory rfl⟩

end CimStore

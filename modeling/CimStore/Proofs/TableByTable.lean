import CimStore.Proofs.Attributes
import CimStore.Proofs.Integrity
import CimStore.Proofs.Reading

/-!
# Batches, table by table

A class has a table of its own and one for each reference set, and a batch takes statements to each
of them. Loading reads the columns under all groups of ids first, and then one reference set after
the other for all objects that were loaded. Deleting goes from group to group, and empties the
tables of the reference sets before that of the class.

* `Database.dropTables_eq`, `Store.deleteTables_eq`: deleting so is the deletion at once;
* `Database.membersUnder_eq`: the table of a reference set has the members of the row;
* `Store.attach_unread`: a reference set can be read whichever others have been read;
* `Store.Sound.loadTables_eq`: so loading table by table gives the objects that are loaded at once.
-/

namespace CimStore

/-! ## Statements -/

/-- The row as the class table has it, without the members of reference sets. -/
def ClassRow.columnsOnly (row : ClassRow) : ClassRow := { row with members := .empty }

namespace Database

/-- The object of a class under an id as it is read from the class table. -/
def loadColumns? (db : Database) (c : CimClass) (id : Int) : Option (Except Error Object) := do
  let stored ← db.objects.get? id
  let row ← stored.rows.get? c.name
  return do
    let ⟨fields, h⟩ ← row.columnsOnly.fields c.attributes
    .ok ⟨c, some id, stored.rdfid, some stored.model, fields, h⟩

/-- The members under an id in the table of a reference set. -/
def membersUnder (db : Database) (cimType label : String) (id : Int) : List String :=
  ((db.joinTable cimType label).filter (·.1 = id)).map (·.2)

/-- Deletes the members under the ids from the table of a reference set. -/
def deleteMembers (db : Database) (cimType label : String) (ids : List Int) : Database :=
  { db with
    objects := db.objects.mapValues fun id o =>
      if ids.contains id then
        { o with
          rows := o.rows.mapValues fun name row =>
            if name = cimType then { row with members := row.members.erase label } else row }
      else o }

/-- Deletes the rows under the ids from the table of a class. -/
def deleteRows (db : Database) (cimType : String) (ids : List Int) : Database :=
  { db with
    objects := db.objects.mapValues fun id o =>
      if ids.contains id then { o with rows := o.rows.erase cimType } else o }

/-- Deletes the identities of objects of a class under the ids, and what is left of them. -/
def deleteObjects (db : Database) (cimType : String) (ids : List Int) : Database :=
  { db with objects := db.objects.filter fun id o => !(ids.contains id && o.cimType = cimType) }

/-- Deletes under a group of ids: the members first, then the rows, then the identities. -/
def dropTables (db : Database) (c : CimClass) (ids : List Int) : Database :=
  ((c.referenceSets.foldl (fun db d => db.deleteMembers c.name d.label ids) db).deleteRows c.name
    ids).deleteObjects c.name ids

end Database

/-- Writes texts into an attribute of the object, one after the other. -/
def Object.writeAll (o : Object) (d : Descriptor) (texts : List String) : Except Error Object :=
  match o.fields.find? (·.about = d) with
  | none => .ok o
  | some f => do
    let slot ← texts.foldlM (fun slot t => d.write t slot) f.slot
    return { o with
      fields := o.fields.map fun g => if g.about = d then g.withSlot slot else g
      fields_about := by
        rw [← o.fields_about, List.map_map]
        refine List.map_congr_left fun g _ => ?_
        simp only [Function.comp_apply]
        split <;> simp }

namespace Store

/-- Writes the members of a reference set into an object that was loaded. -/
def attach (s : Store) (cimType : String) (d : Descriptor) (o : Object) : Except Error Object :=
  o.writeAll d (o.id.elim [] (s.db.membersUnder cimType d.label))

/-- Loads a batch: the columns of all objects, then one reference set after the other. -/
def loadTables (s : Store) (cimType : String) (ids : List Int) : Except Error (List Object) := do
  let c ← s.classes.find cimType
  let os ← (((batches ids).flatMap distinct).filterMap (s.db.loadColumns? c)).mapM id
  c.referenceSets.foldlM (fun os d => os.mapM (s.attach cimType d)) os

/-- Deletes a batch, each group table by table. -/
def deleteTables (s : Store) (cimType : String) (ids : List Int) : Except Error Store := do
  let c ← s.classes.find cimType
  return { s with db := (batches ids).foldl (fun db group => db.dropTables c group) s.db }

end Store

/-! ## Deleting -/

namespace Database

variable (db : Database) (cimType : String) (ids : List Int)

/-- Members that were deleted do not count for their row. -/
theorem deleteRows_deleteMembers (label : String) :
    (db.deleteMembers cimType label ids).deleteRows cimType ids = db.deleteRows cimType ids := by
  refine congrArg (fun objects => { db with objects }) (SortedMap.ext_get? fun id => ?_)
  simp only [deleteMembers, SortedMap.get?_mapValues, Option.map_map]
  refine congrArg (Option.map · _) (funext fun o => ?_)
  simp only [Function.comp_apply]
  by_cases hid : id ∈ ids
  · have hrows : (o.rows.mapValues fun name row => if name = cimType then
        { row with members := row.members.erase label } else row).erase cimType =
        o.rows.erase cimType := by
      refine SortedMap.ext_get? fun name => ?_
      simp only [SortedMap.get?_erase, SortedMap.get?_mapValues]
      by_cases hname : name = cimType
      · simp [hname]
      · cases o.rows.get? name <;> simp [hname]
    simp [hid, hrows]
  · simp [hid]

theorem deleteObjects_deleteRows :
    (db.deleteRows cimType ids).deleteObjects cimType ids = db.drop cimType ids := by
  refine congrArg (fun objects => { db with objects }) (SortedMap.ext_get? fun id => ?_)
  show _ = (db.drop cimType ids).objects.get? id
  rw [get?_drop, SortedMap.get?_filter, deleteRows, SortedMap.get?_mapValues]
  cases db.objects.get? id with
  | none => rfl
  | some o =>
    by_cases hid : id ∈ ids
    · by_cases hown : o.cimType = cimType <;> simp [hid, hown, Option.filter]
    · simp [hid, Option.filter]

/-- **A group is deleted table by table** as it is at once. -/
theorem dropTables_eq (c : CimClass) : db.dropTables c ids = db.drop c.name ids := by
  rw [dropTables, ← deleteObjects_deleteRows]
  refine congrArg (deleteObjects · c.name ids) ?_
  induction c.referenceSets generalizing db with
  | nil => rfl
  | cons d ds ih => rw [List.foldl_cons, ih, deleteRows_deleteMembers]

end Database

theorem Store.deleteTables_eq (s : Store) (cimType : String) (ids : List Int) :
    s.deleteTables cimType ids = s.deleteBatch cimType ids := by
  unfold deleteTables deleteBatch
  simp only [Database.dropTables_eq]

/-! ## Loading -/

/-- A table has the values of a key where the map has the key. -/
theorem SortedMap.filter_flatMap_entries {α β : Type} (m : SortedMap Int α) (g : α → List β)
    (id : Int) :
    ((m.entries.flatMap fun e => (g e.2).map (e.1, ·)).filter (·.1 = id)).map (·.2) =
      (m.get? id).elim [] g := by
  obtain ⟨es, h⟩ := m
  show _ = ((es.find? (·.1 = id)).map (·.2)).elim [] g
  have hone : ∀ e : Int × α, (((g e.2).map (e.1, ·)).filter (·.1 = id)).map (·.2) =
      if e.1 = id then g e.2 else [] := by
    intro e
    by_cases he : e.1 = id <;> simp [he, List.filter_map, Function.comp_def]
  rw [List.filter_flatMap, List.map_flatMap]
  simp only [hone]
  induction es with
  | nil => rfl
  | cons e es ih =>
    obtain ⟨hlt, hes⟩ := List.pairwise_cons.mp h
    rw [List.flatMap_cons, ih hes]
    by_cases he : e.1 = id
    · -- No other entry has the key.
      have hnone : es.find? (·.1 = id) = none := by
        refine List.find?_eq_none.mpr fun a ha => ?_
        have := hlt a ha
        simp only [decide_eq_true_eq]
        omega
      simp [he, hnone]
    · simp [he]

theorem Database.membersUnder_eq (db : Database) (cimType label : String) (id : Int) :
    db.membersUnder cimType label id =
      ((db.row? cimType id).bind (·.members.get? label)).getD [] := by
  have htable := SortedMap.filter_flatMap_entries db.objects
    (fun o => ((o.rows.get? cimType).bind (·.members.get? label)).getD []) id
  refine htable.trans ?_
  unfold row?
  cases db.objects.get? id <;> rfl

namespace Field

/-- The field without its members if it is a reference set that has not been read. -/
def unread (done : List Descriptor) (f : Field) : Field :=
  if f.isSet = true ∧ f.about ∉ done then .empty f.about else f

@[simp]
theorem about_unread (done : List Descriptor) (f : Field) : (f.unread done).about = f.about := by
  unfold unread
  split <;> rfl

theorem isSet_reloaded (f : Field) : f.reloaded.isSet = f.isSet := by
  rw [isSet, about_reloaded, isSet]

theorem reloaded_of_isSet {f : Field} (h : f.isSet = true) :
    f.reloaded = (Field.empty f.about).withSlot f.slot.reloaded := by
  have hused : f.about.isUsed = true := by
    simp only [isSet, Bool.and_eq_true] at h
    exact h.1
  have hsort := f.slot.sort_reloaded.trans f.sort_slot
  rw [reloaded, if_pos hused]
  simp [withSlot, hsort, Field.empty]

end Field

namespace Object

/-- The object when only the reference sets in `done` have been read. -/
def unread (done : List Descriptor) (o : Object) : Object :=
  { o with
    fields := o.fields.map (Field.unread done)
    fields_about := by
      rw [← o.fields_about, List.map_map]
      exact List.map_congr_left fun f _ => f.about_unread done }

theorem fields_unread_reloaded (o : Object) (id : Int) (rdfid : String) (model : Int)
    (done : List Descriptor) : ((o.reloaded id rdfid model).unread done).fields =
      o.fields.map fun f => f.reloaded.unread done :=
  List.map_map

/-- Nothing is missing when all reference sets of the class have been read. -/
theorem unread_referenceSets (o : Object) {done : List Descriptor}
    (h : ∀ d ∈ o.cls.referenceSets, d ∈ done) : o.unread done = o := by
  refine ext_fields rfl rfl rfl rfl ?_
  show o.fields.map (Field.unread done) = o.fields
  conv_rhs => rw [← List.map_id o.fields]
  refine List.map_congr_left fun f hf => ?_
  unfold Field.unread
  rw [if_neg]
  · rfl
  · rintro ⟨hset, hnot⟩
    refine hnot (h _ ?_)
    rw [o.referenceSets_cls]
    exact List.mem_map_of_mem (List.mem_filter.mpr ⟨hf, hset⟩)

variable {o : Object} {f : Field}

/-- No two fields of an object are of one reference set. -/
theorem eq_of_isSet (hc : o.cls.Storable) (hf : f ∈ o.fields) {g : Field} (hg : g ∈ o.fields)
    (hset : f.isSet = true) (h : g.about = f.about) : g = f := by
  have hnodup : ((o.fields.filter Field.isSet).map Field.about).Nodup :=
    o.referenceSets_cls ▸ hc.sets.of_map _
  have hset' : g.isSet = true := by rw [Field.isSet, h]; exact hset
  exact List.inj_on_of_nodup_map hnodup (List.mem_filter.mpr ⟨hg, hset'⟩)
    (List.mem_filter.mpr ⟨hf, hset⟩) h

/-- Without the members, the row gives back the columns. -/
theorem field_columnsOnly (hc : o.cls.Storable) (hf : f ∈ o.fields) :
    o.row.columnsOnly.field f.about = .ok (f.reloaded.unread []) := by
  unfold Field.unread
  rw [f.isSet_reloaded, f.about_reloaded]
  by_cases hset : f.isSet = true
  · have hkind : f.about.isUsed = true ∧ f.about.kind = .referenceSet := by
      simpa [Field.isSet] using hset
    have htexts : o.row.columnsOnly.texts f.about = [] := by
      simp [ClassRow.texts, ClassRow.columnsOnly, hkind]
    rw [ClassRow.field, htexts, if_pos ⟨hset, List.not_mem_nil⟩]
    show Except.ok ((Field.empty f.about).withSlot (Field.empty f.about).slot) = _
    rw [Field.withSlot_self]
  · have htexts : o.row.columnsOnly.texts f.about = o.row.texts f.about := by
      unfold ClassRow.texts
      split
      · rfl
      · split
        · rename_i hused hkind
          exact absurd (by simpa [Field.isSet, hkind] using hused) hset
        · rfl
    rw [if_neg fun h => hset h.1, ← field_row hc hf, ClassRow.field, ClassRow.field, htexts]

theorem fields_columnsOnly (hc : o.cls.Storable) (id : Int) (rdfid : String) (model : Int) :
    o.row.columnsOnly.fields o.cls.attributes =
      .ok ⟨((o.reloaded id rdfid model).unread []).fields,
        ((o.reloaded id rdfid model).unread []).fields_about⟩ := by
  have hfields := o.fields_unread_reloaded id rdfid model []
  have hds : (o.fields.map fun f => f.reloaded.unread []).map Field.about = o.cls.attributes :=
    hfields ▸ ((o.reloaded id rdfid model).unread []).fields_about
  rw [ClassRow.fields_eq (fun f => by rw [Field.about_unread, Field.about_reloaded])
    (fun f hf => field_columnsOnly hc hf) hds]
  exact congrArg Except.ok (Subtype.ext hfields.symm)

/-- A set that has not been read is found as it is in a new object. -/
theorem find?_unread (hc : o.cls.Storable) (hf : f ∈ o.fields) (hset : f.isSet = true)
    {done : List Descriptor} (hnew : f.about ∉ done) :
    (o.fields.map fun g => g.reloaded.unread done).find? (·.about = f.about) =
      some (.empty f.about) := by
  have hempty : f.reloaded.unread done = .empty f.about := by
    unfold Field.unread
    rw [f.isSet_reloaded, f.about_reloaded, if_pos ⟨hset, hnew⟩]
  have hsome : ((o.fields.map fun g => g.reloaded.unread done).find?
      (·.about = f.about)).isSome = true :=
    List.find?_isSome.mpr ⟨_, List.mem_map_of_mem hf, by simp [Field.about_reloaded]⟩
  obtain ⟨y, hy⟩ := Option.isSome_iff_exists.mp hsome
  have habout : y.about = f.about := by simpa using List.find?_some hy
  obtain ⟨g, hg, rfl⟩ := List.mem_map.mp (List.mem_of_find?_eq_some hy)
  rw [Field.about_unread, Field.about_reloaded] at habout
  rw [hy, eq_of_isSet hc hf hg hset habout, hempty]

/-- **Writing the members of a set reads it**, whichever others have been read. -/
theorem writeAll_unread (hc : o.cls.Storable) (hf : f ∈ o.fields) (hset : f.isSet = true)
    {done : List Descriptor} (hnew : f.about ∉ done) (id : Int) (rdfid : String) (model : Int) :
    ((o.reloaded id rdfid model).unread done).writeAll f.about
        ((o.row.members.get? f.about.label).getD []) =
      .ok ((o.reloaded id rdfid model).unread (f.about :: done)) := by
  have hfields := o.fields_unread_reloaded id rdfid model done
  have hfind : ((o.reloaded id rdfid model).unread done).fields.find? (·.about = f.about) =
      some (.empty f.about) := hfields ▸ find?_unread hc hf hset hnew
  have hwrite : ((o.row.members.get? f.about.label).getD []).foldlM
      (fun slot t => f.about.write t slot) (Field.empty f.about).slot = .ok f.slot.reloaded :=
    write_members_row hc hf hset
  rw [writeAll, hfind]
  show (_ >>= _) = _
  rw [hwrite]
  refine congrArg Except.ok (ext_fields rfl rfl rfl rfl ?_)
  show ((o.reloaded id rdfid model).unread done).fields.map _ =
    (o.fields.map Field.reloaded).map (Field.unread (f.about :: done))
  rw [hfields, List.map_map, List.map_map]
  refine List.map_congr_left fun g hg => ?_
  simp only [Function.comp_apply, Field.about_unread, Field.about_reloaded]
  by_cases habout : g.about = f.about
  · -- Only the set itself is of this attribute.
    obtain rfl := eq_of_isSet hc hf hg hset habout
    unfold Field.unread
    rw [if_pos rfl, if_pos ⟨g.isSet_reloaded.trans hset, by rwa [g.about_reloaded]⟩,
      g.about_reloaded, ← Field.reloaded_of_isSet hset, if_neg (by simp)]
  · rw [if_neg habout]
    unfold Field.unread
    simp [Field.about_reloaded, habout]

end Object

theorem Database.loadColumns?_eq_none {db : Database} {c : CimClass} {id : Int}
    (h : db.row? c.name id = none) : db.loadColumns? c id = none := by
  unfold row? at h
  unfold loadColumns?
  cases hst : db.objects.get? id with
  | none => rfl
  | some st =>
    have hrow : st.rows.get? c.name = none := by simpa [hst] using h
    simp [hrow]

theorem Database.loadColumns?_eq {db : Database} {o : Object} {id : Int} {stored : StoredObject}
    (hget : db.objects.get? id = some stored) (hrow : stored.rows.get? o.cls.name = some o.row)
    (hc : o.cls.Storable) : db.loadColumns? o.cls id =
      some (.ok ((o.reloaded id stored.rdfid stored.model).unread [])) := by
  simp only [Database.loadColumns?, hget, hrow, Option.bind_eq_bind, Option.bind_some,
    Object.fields_columnsOnly hc id stored.rdfid stored.model]
  rfl

namespace Store

variable {k : Catalog} {s : Store} {cimType : String} {c : CimClass}

/-- **A reference set is read when others have been read**, and these stay. -/
theorem attach_unread {o : Object} {id : Int} {st : StoredObject}
    (hst : s.db.objects.get? id = some st) (hrow : st.rows.get? cimType = some o.row)
    (hc : o.cls.Storable) {d : Descriptor} (hd : d ∈ o.cls.referenceSets) {done : List Descriptor}
    (hnew : d ∉ done) (rdfid : String) (model : Int) :
    s.attach cimType d ((o.reloaded id rdfid model).unread done) =
      .ok ((o.reloaded id rdfid model).unread (d :: done)) := by
  rw [o.referenceSets_cls] at hd
  obtain ⟨f, hf, rfl⟩ := List.mem_map.mp hd
  obtain ⟨hf, hset⟩ := List.mem_filter.mp hf
  have hmembers : s.db.membersUnder cimType f.about.label id =
      (o.row.members.get? f.about.label).getD [] := by
    rw [Database.membersUnder_eq, Database.row?_eq_some_iff.mpr ⟨st, hst, hrow⟩]
    rfl
  show Object.writeAll _ f.about (s.db.membersUnder cimType f.about.label id) = _
  rw [hmembers]
  exact Object.writeAll_unread hc hf hset hnew id rdfid model

/-- A set is read for all objects if it can be read for each. -/
theorem mapM_attach {os : List Object} {d : Descriptor} {done : List Descriptor}
    (hos : ∀ o ∈ os, s.attach cimType d (o.unread done) = .ok (o.unread (d :: done))) :
    (os.map (Object.unread done)).mapM (s.attach cimType d) =
      .ok (os.map (Object.unread (d :: done))) := by
  induction os with
  | nil => rfl
  | cons o os ih =>
    rw [List.map_cons, List.mapM_cons, hos o (List.mem_cons_self ..),
      ih fun o ho => hos o (List.mem_cons_of_mem _ ho)]
    rfl

/-- The sets of a class are read one after the other for all objects that were loaded. -/
theorem foldlM_attach {os : List Object} {ds : List Descriptor} (done : List Descriptor)
    (hos : ∀ o ∈ os, ∀ d ∈ ds, ∀ done : List Descriptor, d ∉ done →
      s.attach cimType d (o.unread done) = .ok (o.unread (d :: done)))
    (hnodup : ds.Nodup) (hnew : ∀ d ∈ ds, d ∉ done) :
    ds.foldlM (fun os d => os.mapM (s.attach cimType d)) (os.map (Object.unread done)) =
      .ok (os.map (Object.unread (ds.reverse ++ done))) := by
  induction ds generalizing done with
  | nil => rfl
  | cons d ds ih =>
    obtain ⟨hd, hds⟩ := List.nodup_cons.mp hnodup
    have hstep := mapM_attach fun o ho =>
      hos o ho d (List.mem_cons_self ..) done (hnew d (List.mem_cons_self ..))
    have hrest := ih (d :: done)
      (fun o ho e he => hos o ho e (List.mem_cons_of_mem _ he)) hds (fun e he hmem => by
        rcases List.mem_cons.mp hmem with rfl | hmem
        · exact hd he
        · exact hnew e (List.mem_cons_of_mem _ he) hmem)
    rw [List.foldlM_cons, hstep, List.reverse_cons, List.append_assoc]
    exact hrest

/-- The columns are read of the objects that are loaded at once, and of no others. -/
theorem Sound.mapM_loadColumns (h : s.Sound k) (hk : k.Storable) (hc : k.get? cimType = some c)
    (ids : List Int) : (ids.filterMap (s.db.loadColumns? c)).mapM id =
      (.ok ((ids.filterMap (s.db.loaded? c)).map (Object.unread [])) :
        Except Error (List Object)) := by
  have hname : c.name = cimType := hk.name_eq hc
  induction ids with
  | nil => rfl
  | cons id ids ih =>
    rcases h.db.load?_cases hk hc id with ⟨hrow, hload⟩ | ⟨o, st, hst, hrow, rfl, hload⟩
    · have hnone := Database.loaded?_eq_none hload
      have hnone' := Database.loadColumns?_eq_none (hname ▸ hrow)
      rw [List.filterMap_cons_none hnone, List.filterMap_cons_none hnone', ih]
    · have hsome := Database.loaded?_of_load? hload
      have hfirst := Database.loadColumns?_eq hst (hname ▸ hrow) (hk.storable hc)
      rw [List.filterMap_cons_some hsome, List.filterMap_cons_some hfirst, List.mapM_cons, ih]
      rfl

/-- **Loading table by table** gives the objects that are loaded at once: the members of the
reference sets can be read after the columns of all groups. -/
theorem Sound.loadTables_eq (h : s.Sound k) (hk : k.Storable)
    (hc : k.get? cimType = some c) (ids : List Int) :
    s.loadTables cimType ids = s.loadBatch cimType ids := by
  have hfind : s.classes.find cimType = .ok c := Catalog.find_eq_ok_iff.mpr (h.classes ▸ hc)
  rw [h.loadBatch_eq_ok hk hc, loadTables, hfind]
  generalize (batches ids).flatMap distinct = ids
  show ((ids.filterMap (s.db.loadColumns? c)).mapM id >>= fun os =>
    c.referenceSets.foldlM (fun os d => os.mapM (s.attach cimType d)) os) = _
  rw [h.mapM_loadColumns hk hc ids]
  show c.referenceSets.foldlM _ ((ids.filterMap (s.db.loaded? c)).map (Object.unread [])) = _
  -- What is loaded is under an id with a row, where its members are found.
  have hloaded : ∀ y ∈ ids.filterMap (s.db.loaded? c), ∃ (id : Int) (o : Object)
      (st : StoredObject), s.db.objects.get? id = some st ∧ st.rows.get? cimType = some o.row ∧
        o.cls = c ∧ y = o.reloaded id st.rdfid st.model := by
    intro y hy
    obtain ⟨id, -, hid⟩ := List.mem_filterMap.mp hy
    exact ⟨id, h.db.loaded?_eq_some hk hc hid⟩
  have hnodup : c.referenceSets.Nodup := (hk.storable hc).sets.of_map _
  rw [foldlM_attach [] ?_ hnodup (fun _ _ => List.not_mem_nil), List.append_nil]
  · refine congrArg Except.ok ?_
    conv_rhs => rw [← List.map_id (ids.filterMap (s.db.loaded? c))]
    refine List.map_congr_left fun y hy => ?_
    obtain ⟨id, o, st, -, -, rfl, rfl⟩ := hloaded y hy
    exact Object.unread_referenceSets _ fun d hd => List.mem_reverse.mpr hd
  · intro y hy d hd done hnew
    obtain ⟨id, o, st, hst, hrow, rfl, rfl⟩ := hloaded y hy
    exact attach_unread hst hrow (hk.storable hc) hd hnew st.rdfid st.model

end Store

end CimStore

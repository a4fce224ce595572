import CimStore.Cli.Run
import CimStore.Proofs.Files
import CimStore.Proofs.Importing

/-!
# Commands on a disk

What a command does to the disk follows from what its operations do to the content of the database
that it opens.

* `Cli.Action.operate_kept`, `Cli.Action.operate_lost`: what operations leave is put into the file
  of the database, or the disk stays as it is;
* `Cli.Action.runImport_eq`: an import is `Service.importModel`, run on the opened database;
* `Cli.Action.runImport_atomic`: so it adds a model to the file, or it leaves the disk as it is.
-/

namespace CimStore

/-- A service on a database with this content, as a command opens it. -/
def Service.onContent (db : Database) : Service := { store := { db } }

/-- What another command finds is the store as it was left, if no transaction was open. -/
theorem Store.eq_onContent {s : Store} (h : s.Sound .standard) (hs : s.begun = none) :
    s = (Service.onContent s.db).store := by
  obtain ⟨classes, db, begun⟩ := s
  obtain rfl := h.classes
  obtain rfl := hs
  rfl

namespace Cli.Action

variable {α β : Type} {d d' : Desk}

/-! ## Steps -/

section Steps

variable {x : Action α} {f : α → Action β}

/-- An action goes on with what the one before it gives. -/
theorem bind_ok {a : α} (h : x d = (.ok a, d')) : (x >>= f) d = f a d' :=
  CimStore.bind_eq (f := x) (g := ExceptT.bindCont f) h

/-- It ends where the one before it ends with an error. -/
theorem bind_error {e : Failure} (h : x d = (.error e, d')) : (x >>= f) d = (.error e, d') :=
  CimStore.bind_eq (f := x) (g := ExceptT.bindCont f) h

end Steps

theorem get_eq (d : Desk) : (get : Action Desk) d = (.ok d, d) := rfl

theorem print_eq (text : String) (d : Desk) :
    print text d = (.ok (), { d with out := d.out ++ [text] }) := rfl

theorem orFail_ok {ε : Type} (g : ε → Failure) (a : α) (d : Desk) :
    orFail g (.ok a) d = (.ok a, d) := rfl

/-- What is done to the disk and succeeds. -/
theorem onDisk_ok {ε : Type} {g : ε → Failure} {r : Disk → Except ε α × Disk} {a : α} {disk : Disk}
    (h : r d.disk = (.ok a, disk)) : onDisk g r d = (.ok a, { d with disk := disk }) := by
  unfold onDisk
  rw [bind_ok (get_eq d), h]
  rfl

section Operate

variable {o : Opened} {f : StateM Service (Except Error α)} {r : Except Error α} {s : Service}
  {disk : Disk}

/-- What operations have left in a database is put into its file, if it can be; then it counts
whether they have succeeded. -/
theorem operate_kept (hf : f (.onContent o.content) = (r, s))
    (hkeep : d.disk.keep o (s.store.reopen .standard).db = .ok disk) :
    operate o f d = (r.mapError .store, { d with disk := disk }) := by
  have hf : f { store := { db := o.content } } = (r, s) := hf
  unfold operate
  simp only [hf]
  rw [bind_ok (get_eq d), hkeep]
  cases r <;> rfl

/-- If it cannot be, the disk stays as it is. -/
theorem operate_lost {a : α} {fault : OpenFault} (hf : f (.onContent o.content) = (.ok a, s))
    (hkeep : d.disk.keep o (s.store.reopen .standard).db = .error fault) :
    operate o f d = (.error (.opening fault), d) := by
  have hf : f { store := { db := o.content } } = (.ok a, s) := hf
  unfold operate
  simp only [hf]
  rw [bind_ok (get_eq d), hkeep]
  rfl

end Operate

/-! ## Importing a file -/

/-- The name that a model gets. -/
def importName (file : String) (name? : Option String) : String :=
  name?.getD ((Path.stem? file).getD "unnamed")

/-- What is printed of an import, which has to have given the model an id. -/
def reportImport (database : String) (imported : Imported) : Action Unit :=
  match imported.model.id with
  | none => throw .unsavedModel
  | some id => do
    print ("✅ Saved " ++ toString imported.objects.length ++ " objects as model " ++
      formatInteger id)
    status "🗄️" "Database" database

/-- Printing changes nothing on the disk. -/
theorem reportImport_ok (database : String) (imported : Imported) {id : Int}
    (h : imported.model.id = some id) (d : Desk) :
    ∃ d', reportImport database imported d = (.ok (), d') ∧ d'.disk = d.disk := by
  unfold reportImport
  rw [h]
  exact ⟨_, rfl, rfl⟩

variable {database file payload : String} {d₁ d₂ : Disk} {o : Opened}

/-- A payload that can be found is imported into a database that can be opened. -/
theorem runImport_eq (name? : Option String)
    (hpayload : d.disk.readText (Path.ofText file) = .ok payload)
    (hroom : d.disk.makeRoom (Path.ofText database) = (.ok (), d₁))
    (hopen : d₁.openDatabase database = (.ok o, d₂)) :
    runImport database file name? d =
      (operate o (Service.importModel (importName file name?) payload) >>= reportImport database)
        { d with disk := d₂, out := d.out ++ ["⚡ " ++ ("Importing " ++ file)] } := by
  have hopened : openDatabase database { d with disk := d₁ } = (.ok o, { d with disk := d₂ }) :=
    onDisk_ok hopen
  unfold runImport
  rw [bind_ok (get_eq d), hpayload, bind_ok (orFail_ok ..), bind_ok (onDisk_ok hroom),
    bind_ok hopened, header, bind_ok (print_eq ..)]
  rfl

/-- **Import is all or nothing.** A payload is imported into a database that can be opened and has a
content that a store can be brought to, whatever its history. Either the import succeeds, and the
file of the database holds one more model, under an id that has never been given: its unlinked read
has one object for each entry of the payload, with the rdf:ID of the entry as it is kept and its
class, and all else is told of the database as before. Or the import fails, and the disk is as it
was when the database had been opened. If the database can be written and there are ids left, it
succeeds just if the payload can be read. -/
theorem runImport_atomic {s : Service} (hs : s.Reachable .standard) (name? : Option String)
    (hpayload : d.disk.readText (Path.ofText file) = .ok payload)
    (hroom : d.disk.makeRoom (Path.ofText database) = (.ok (), d₁))
    (hopen : d₁.openDatabase database = (.ok o, d₂))
    (hcontent : o.content = (s.store.reopen .standard).db) :
    ∃ r d', runImport database file name? d = (r, d') ∧ d₂.Holds o o.content ∧
      ((r = .ok () ∧ ∃ es db', Entry.readAll payload = .ok es ∧ d'.disk.Holds o db' ∧
          (Service.onContent o.content).Adds (o.content.lastModel + 1) (importName file name?) es
            (.onContent db')) ∨
        ((∃ e, r = .error e) ∧ d'.disk = d₂)) ∧
      ((∀ db, (d₂.keep o db).isOk = true) →
        (∀ objects, readObjects .standard payload = .ok objects →
          (Service.onContent o.content).HasRoom objects.size) →
        (r = .ok () ↔ ∃ objects, readObjects .standard payload = .ok objects)) := by
  have h : (Service.onContent o.content).store.Sound .standard := by
    have hreopened := (hs.sound Catalog.standard_storable).reopen
    rwa [show s.store.reopen .standard = { db := o.content } by rw [hcontent]; rfl] at hreopened
  have hholds := Disk.openDatabase_holds hopen
  rw [runImport_eq name? hpayload hroom hopen]
  generalize hstart : ({ d with
    disk := d₂, out := d.out ++ ["⚡ " ++ ("Importing " ++ file)] } : Desk) = start
  obtain rfl : start.disk = d₂ := by rw [← hstart]
  rcases Service.importModel_cases h rfl (importName file name?) payload with
    ⟨es, m, saved, s', hes, himport, hid, h', hbegun, hadds⟩ | ⟨e, s', himport, hbegun, hdb⟩
  · have hreads : ∀ hroom, ∃ objects, readObjects .standard payload = .ok objects := fun hroom =>
      (Service.importModel_ok_iff h rfl hroom).mp ⟨_, s', himport⟩
    have hleft : (s'.store.reopen .standard).db = s'.store.db := by
      rw [Store.reopen, hbegun, Option.getD_none]
    cases hkeep : start.disk.keep o (s'.store.reopen .standard).db with
    | ok disk =>
      obtain ⟨d', hreport, hdisk⟩ := reportImport_ok database ⟨m, saved⟩ hid
        { start with disk := disk }
      refine ⟨.ok (), d', ?_, hholds, .inl ⟨rfl, es, s'.store.db, hes, ?_, ?_⟩,
        fun _ hroom => iff_of_true rfl (hreads hroom)⟩
      · rw [bind_ok (operate_kept himport hkeep)]
        exact hreport
      · rw [hdisk, ← hleft]
        exact Disk.keep_holds hholds hkeep
      · exact hadds.congr Catalog.standard_storable h' (Store.eq_onContent h' hbegun).symm
    | error fault =>
      refine ⟨.error (.opening fault), start, bind_error (operate_lost himport hkeep), hholds,
        .inr ⟨⟨_, rfl⟩, rfl⟩, fun hwrite => ?_⟩
      have hok := hwrite (s'.store.reopen .standard).db
      rw [hkeep] at hok
      exact nomatch hok
  · have hkeep : start.disk.keep o (s'.store.reopen .standard).db = .ok start.disk := by
      rw [Store.reopen, hbegun, Option.getD_none, hdb]
      exact start.disk.keep_content o
    refine ⟨.error (.store e), start, bind_error (operate_kept himport hkeep), hholds,
      .inr ⟨⟨_, rfl⟩, rfl⟩, fun _ hroom => iff_of_false nofun fun hreads => ?_⟩
    obtain ⟨imported, s'', hok⟩ := (Service.importModel_ok_iff h rfl hroom).mpr hreads
    exact nomatch himport.symm.trans hok

end Cli.Action

namespace SmallGrid

/-- A service that has stored a node as its first model. -/
def single : Service :=
  (Service.opened .standard).perform [.saveObjects (.named "old") [node "_n1"]]

theorem reachable_single : single.Reachable .standard := (Service.Reachable.opened _).performs _

/-- A payload of a node and a busbar. -/
def newPayload : String := "[[\"#_n1\", \"TopologicalNode\"], [\" _b \", \"BusbarSection\"]]"

/-- A desk with this payload and the database of the node. -/
def desk : Cli.Desk where
  disk := (Disk.ofTexts [("new.json", newPayload)]).put (Disk.placeOf ["tmp", "work", "cim.db"])
    (.database single.store.db)

end SmallGrid

namespace Cli.Action

/-- The payload is imported next to a model that has a node with one of its rdf:IDs. -/
theorem runImport_atomic_desk : ∃ o d' es db',
    runImport "cim.db" "new.json" none SmallGrid.desk = (.ok (), d') ∧ d'.disk.Holds o db' ∧
      o.place? = some (Disk.placeOf ["tmp", "work", "cim.db"]) ∧
      es.map Entry.key = [("_n1", "TopologicalNode"), ("_b", "BusbarSection")] ∧
      (Service.onContent SmallGrid.single.store.db).Adds 2 "new" es (.onContent db') := by
  obtain ⟨hpayload, hroom, hopened, hread, hjournal⟩ :
      SmallGrid.desk.disk.readText (Path.ofText "new.json") = .ok SmallGrid.newPayload ∧
      SmallGrid.desk.disk.makeRoom (Path.ofText "cim.db") = (.ok (), SmallGrid.desk.disk) ∧
      (SmallGrid.desk.disk.openDatabase "cim.db").2 = SmallGrid.desk.disk ∧
      (SmallGrid.desk.disk.openDatabase "cim.db").1.toOption.map
          (fun o => (o.content, o.place?, o.isReadOnly)) =
        some (SmallGrid.single.store.db, some (Disk.placeOf ["tmp", "work", "cim.db"]), false) ∧
      SmallGrid.desk.disk.canKeepJournal (Disk.placeOf ["tmp", "work", "cim.db"]) = true := by
    decide +kernel
  obtain ⟨hreopened, hlast, hmodels, hobjects⟩ :
      (SmallGrid.single.store.reopen .standard).db = SmallGrid.single.store.db ∧
      SmallGrid.single.store.db.lastModel + 1 = 2 ∧
      SmallGrid.single.store.db.lastModel < maxInteger ∧
      SmallGrid.single.store.db.lastObject + (2 : Nat) ≤ maxInteger := by decide +kernel
  have hname : importName "new.json" none = "new" := by decide +kernel
  have hkeys : (Entry.readAll SmallGrid.newPayload).toOption.map (·.map Entry.key) =
      some [("_n1", "TopologicalNode"), ("_b", "BusbarSection")] := by decide +kernel
  have hsize : (readObjects .standard SmallGrid.newPayload).toOption.map (·.size) = some 2 := by
    decide +kernel
  rcases hopen : SmallGrid.desk.disk.openDatabase "cim.db" with ⟨_ | o, d₂⟩
  · rw [hopen] at hread
    cases hread
  rw [hopen] at hopened hread
  obtain rfl : d₂ = SmallGrid.desk.disk := hopened
  obtain ⟨hcontent, hread⟩ := Prod.mk.inj (Option.some.inj hread)
  obtain ⟨hplace, hwritable⟩ := Prod.mk.inj hread
  obtain ⟨r, d', hrun, -, hcases, hok⟩ := runImport_atomic SmallGrid.reachable_single none hpayload
    hroom hopen (hcontent.trans hreopened.symm)
  have hr : r = .ok () := by
    refine (hok (fun db => ?_) fun objects hread => ?_).mpr ?_
    · simp only [Disk.keep, hwritable, hplace, hjournal]
      split <;> rfl
    · rw [hread] at hsize
      rw [hcontent, show objects.size = 2 from Option.some.inj hsize]
      exact ⟨hmodels, hobjects⟩
    · cases hread : readObjects .standard SmallGrid.newPayload with
      | error e =>
        rw [hread] at hsize
        cases hsize
      | ok objects => exact ⟨objects, rfl⟩
  rcases hcases with ⟨-, es, db', hes, hholds, hadds⟩ | ⟨⟨e, he⟩, -⟩
  · rw [hes] at hkeys
    rw [hcontent, hlast, hname] at hadds
    exact ⟨o, d', es, db', hr ▸ hrun, hholds, hplace, Option.some.inj hkeys, hadds⟩
  · cases hr.symm.trans he

end Cli.Action

end CimStore

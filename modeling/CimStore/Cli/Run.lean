import CimStore.Cli.Arguments
import CimStore.Cli.LogFilter
import CimStore.Disk.Databases
import CimStore.Disk.Settings
import CimStore.IdRanges
import CimStore.Store.Listing
import CimStore.Table
import CimStore.Transaction

/-!
# Running commands

`run` runs the program once on a disk: it reads the settings, opens the database, does what the
command says and prints. `Outcome` is what can be seen of that: the exit code and the lines printed
to either stream.
-/

namespace CimStore.Cli

/-- Why a command ends with an error. -/
inductive Failure
  | store (e : Error)
  | opening (fault : OpenFault)
  | config (fault : ConfigFault)
  | file (fault : FileFault)
  /-- The file to be imported cannot be read. -/
  | unreadable (path : String) (fault : FileFault)
  | noModel (id : Int)
  | unsavedModel
deriving DecidableEq

def Failure.message : Failure → String
  | store e => e.message
  | opening fault => fault.message
  | config fault => fault.message
  | file fault => fault.message
  | unreadable path fault => "failed to read " ++ path ++ ": " ++ fault.message
  | noModel id => "model " ++ formatInteger id ++ " not found"
  | unsavedModel => "model has no id after saving"

/-- The disk and what has been printed. -/
structure Desk where
  disk : Disk
  /-- Texts printed to the standard output, each with a line end behind it. -/
  out : List String := []
  /-- Texts printed to the standard error output. -/
  err : List String := []
deriving DecidableEq

/-- What a command does. What it has printed before a failure stays printed. -/
abbrev Action (α : Type) := ExceptT Failure (StateM Desk) α

namespace Action

def print (text : String) : Action Unit := modify fun d => { d with out := d.out ++ [text] }

def complain (text : String) : Action Unit := modify fun d => { d with err := d.err ++ [text] }

/-- Goes on with a result, or fails. -/
def orFail {ε α : Type} (f : ε → Failure) (r : Except ε α) : Action α :=
  match r with
  | .ok a => pure a
  | .error e => throw (f e)

/-- Changes the disk, or fails. -/
def change {ε : Type} (f : ε → Failure) (r : Disk → Except ε Disk) : Action Unit := do
  let disk ← orFail f (r (← get).disk)
  modify fun d => { d with disk := disk }

/-- Does something to the disk that may fail and leave the disk changed. -/
def onDisk {ε α : Type} (f : ε → Failure) (r : Disk → Except ε α × Disk) : Action α := do
  let (result, disk) := r (← get).disk
  modify fun d => { d with disk := disk }
  orFail f result

/-- Opens the database that a text names. -/
def openDatabase (text : String) : Action Opened := onDisk .opening (·.openDatabase text)

/-- Runs operations on an open database. What they leave in it is kept, also if they fail. -/
def operate {α : Type} (o : Opened) (f : StateM Service (Except Error α)) : Action α := do
  let (r, s) := f { store := { db := o.content } }
  let kept := (← get).disk.keep o (s.store.reopen Catalog.standard).db
  modify fun d => { d with disk := kept.toOption.getD d.disk }
  let a ← orFail .store r
  let _ ← orFail .opening kept
  return a

/-- Runs operations on the database that a text names. -/
def withDatabase {α : Type} (text : String) (f : StateM Service (Except Error α)) : Action α := do
  operate (← openDatabase text) f

/-! ## What is printed -/

def header (text : String) : Action Unit := print ("⚡ " ++ text)

def status (icon label value : String) : Action Unit :=
  print (icon ++ " " ++ label ++ ": " ++ value)

def heading (title : String) : Action Unit := do
  print ""
  print ("━" ++ title ++ "━")

def row (label value : String) : Action Unit := print ("  " ++ label ++ " " ++ value)

def dangling (s : ReferenceSite) : Action Unit :=
  print ("  🌍 " ++ s.cimType ++ " " ++ s.rdfid ++ " " ++ s.name ++ " -> " ++ s.target)

def failure (s : ReferenceSite) (e : Error) : Action Unit :=
  complain ("  ❌ " ++ s.cimType ++ " " ++ s.rdfid ++ " " ++ s.name ++ ": " ++ e.message)

/-- A field of an object: its links, or its value if it has none. -/
def field (g : Graph) (f : Field) : Action Unit :=
  match f.slot.read with
  | none => pure ()
  | some value =>
    if f.slot.links.isEmpty then row f.about.label value.display
    else f.slot.links.forM fun l =>
      row f.about.label ("🔗 " ++ ((g.resolve? l).map Object.describe).getD l.rdfid)

def object (g : Graph) (o : Object) : Action Unit := do
  print (o.cimType ++ " " ++ o.rdfid)
  o.fields.forM (field g)

/-! ## The commands -/

def runInit (config database : String) (force : Bool) : Action Unit := do
  let settings : Config := { database := some database, linkObjects := some true }
  change .config (·.writeConfig config settings force)
  onDisk .file (·.makeRoom (Path.ofText database))
  let _ ← openDatabase database
  print "✅ Initialized cimdb"
  print ("ℹ️ Config: " ++ config)
  status "🗄️" "Database" database

def runImport (database file : String) (name? : Option String) : Action Unit := do
  let payload ← orFail (.unreadable file) ((← get).disk.readText (Path.ofText file))
  let name := name?.getD ((Path.stem? file).getD "unnamed")
  onDisk .file (·.makeRoom (Path.ofText database))
  let opened ← openDatabase database
  header ("Importing " ++ file)
  let imported ← operate opened (Service.importModel name payload)
  match imported.model.id with
  | none => throw .unsavedModel
  | some id =>
    print ("✅ Saved " ++ toString imported.objects.length ++ " objects as model " ++
      formatInteger id)
    status "🗄️" "Database" database

def runRead (database : String) (model : Int) (linked : Bool) (format : Format) (listed : Bool) :
    Action Unit := do
  let (g, name?) ← withDatabase database do
    let result ← Service.read model linked
    let name? := (← get).store.modelName? model
    return result.map fun g => (g, name?)
  if format = .json then print g.write
  else
    header ("Model " ++ formatInteger model ++ " " ++ (name?.join.getD ""))
    print (Table.metrics (g.countByType.entries.map fun e => (e.1, toString e.2)))
    if linked then
      heading "Links"
      row "Resolved" (toString g.report.resolved)
      row "Dangling" (toString g.report.dangling.length)
      row "Failed" (toString g.report.failures.length)
      g.report.dangling.forM dangling
      g.report.failures.forM fun f => failure f.1 f.2
    if listed then
      heading "Objects"
      g.objects.forM (object g)

def runDelete (database : String) (model : Int) : Action Unit := do
  if ← withDatabase database (Service.deleteModel model) then
    status "🗑️" "Deleted model" (formatInteger model)
  else complain ("⚠️ Model " ++ formatInteger model ++ " not found")

/-- The ids of each class as JSON. -/
def inventoryJson (inventory : SortedMap String (List Int)) : String :=
  String.ofList (Json.objectBlock 0 (inventory.entries.map fun e =>
    Json.member e.1 (Json.listBlock 2 (e.2.map fun id => (formatInteger id).toList))))

def runInventory (database : String) (model : Int) (format : Format) : Action Unit := do
  let inventory? ← withDatabase database do
    if (← get).store.modelExists model then return .ok (some (← Service.inventory model))
    else return .ok none
  match inventory? with
  | none => throw (.noModel model)
  | some inventory =>
    if format = .json then print (inventoryJson inventory)
    else
      header ("Inventory of model " ++ formatInteger model)
      print (Table.render ["Type", "Objects", "Ids"] (inventory.entries.map fun e =>
        [e.1, toString e.2.length, formatIdRanges e.2]))

def runClasses : Option String → Action Unit
  | none => do
    header (toString Catalog.standard.size ++ " registered classes")
    print (Table.metrics (Catalog.standard.values.map fun c =>
      (c.name, toString c.attributes.length ++ " attributes")))
  | some name => do
    let c ← orFail .store (Catalog.standard.find name)
    header name
    print (Table.render ["Attribute", "Kind", "Type", "Storage"] (c.attributes.map fun d =>
      [d.fullName, d.kind.name, d.valueType.name, (c.storageOf d).getD "(inert)"]))

def runStats (database : String) : Action Unit := do
  let (stats, models) ← withDatabase database do
    let store := (← get).store
    return .ok (store.stats, store.listModels)
  status "📊" "cimdb statistics" database
  print (Table.metrics
    ([("Models", toString stats.models), ("Objects", toString stats.objects),
      ("Classes", toString stats.classes)] ++
      stats.byType.entries.map fun e => ("  " ++ e.1, toString e.2)))
  if !models.isEmpty then
    heading "Models"
    print (Table.render ["Id", "Name", "Objects"] (models.map fun m =>
      [formatInteger m.id, m.name.getD "", toString m.objects]))

/-- Complains about the log filter in the settings, which does not count if everything is to be
logged. -/
def checkLogFilter (config : Config) (verbose : Bool) : Action Unit :=
  if verbose then pure ()
  else (LogFilter.complaints (config.logFilter.getD "info")).forM complain

/-- Reads the settings and runs the command. -/
def runInvocation (i : Invocation) : Action Unit := do
  let config := (← orFail .config ((← get).disk.loadConfig i.config)).getD {}
  checkLogFilter config i.verbose
  let database := i.database.getD config.databasePath
  match i.command with
  | .init force => runInit i.config database force
  | .importFile file name => runImport database file name
  | .read model linked format listed =>
    runRead database model (linked && config.linksObjects) format listed
  | .delete model => runDelete database model
  | .inventory model format => runInventory database model format
  | .classes name => runClasses name
  | .stats => runStats database

end Action

/-- What can be seen of a run. -/
structure Outcome where
  code : Nat
  /-- Texts printed to the standard output, each with a line end behind it. -/
  out : List String
  err : List String
deriving DecidableEq, Repr

/-- The name of the program with its version. -/
def versionLine : String := "cimdb 0.0.1"

/-- Runs the program on a disk. Words that make no request end it with the code 2. -/
def run (args : List String) (disk : Disk) : Outcome × Disk :=
  match Request.parse? args with
  | none => (⟨2, [], []⟩, disk)
  | some .version => (⟨0, [versionLine], []⟩, disk)
  | some (.run i) =>
    match (Action.runInvocation i).run { disk := disk } with
    | (.ok (), d) => (⟨0, d.out, d.err⟩, d.disk)
    | (.error e, d) => (⟨1, d.out, d.err ++ ["❌ " ++ e.message]⟩, d.disk)

end CimStore.Cli

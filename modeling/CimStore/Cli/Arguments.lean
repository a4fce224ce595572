import CimStore.Integer
import CimStore.Text.Cut

/-!
# The arguments of the command line

`Request.parse?` turns the words of a command line into a `Request`: to run an `Invocation`, which
is a command with its settings and the options that hold for all commands, or to name the version.
It gives nothing where the words are not used as they should be.

Options stand before or after the name of the command and between its other words, by their long
name or by their letter, with a value behind them, or attached to them. The options for all
commands may stand on either side of the name; the one behind it counts. The option that asks for
the version stands in front of the name, and what is behind it is not looked at.
-/

namespace CimStore.Cli

inductive Format
  | text | json
deriving DecidableEq, Repr

inductive Command
  | init (force : Bool)
  | importFile (file : String) (name : Option String)
  | read (model : Int) (linked : Bool) (format : Format) (listed : Bool)
  | delete (model : Int)
  | inventory (model : Int) (format : Format)
  | classes (name : Option String)
  | stats
deriving DecidableEq, Repr

/-- A command with the options that hold for all commands. -/
structure Invocation where
  verbose : Bool
  database : Option String
  config : String
  command : Command
deriving DecidableEq, Repr

/-- What a command line asks for. -/
inductive Request
  | run (i : Invocation)
  | version
deriving DecidableEq, Repr

/-! ## Options -/

/-- What an option makes of what is behind it. -/
inductive OptionKind
  | flag
  | takesValue
  /-- Nothing behind it is looked at. -/
  | last
deriving DecidableEq, Repr

/-- An option as it is declared. -/
structure OptionSpec where
  name : String
  letter : Option Char
  kind : OptionKind
deriving DecidableEq, Repr

/-- An option as it is given; the value is empty if the option takes none. -/
structure Given where
  name : String
  value : String
deriving DecidableEq, Repr

/-- The words behind the options of a command line, and the options. -/
structure Words where
  options : List Given
  words : List String
deriving DecidableEq, Repr

namespace Words

def addOptions (given : List Given) (w : Words) : Words :=
  { w with options := given ++ w.options }

def addWord (word : String) (w : Words) : Words := { w with words := word :: w.words }

end Words

/-- What becomes of the words behind an option. -/
inductive Next
  | goOn
  /-- The next word is the value of the option of this name. -/
  | valueOf (name : String)
  | stop
deriving DecidableEq, Repr

/-- What a group of letters gives. -/
def letters (specs : List OptionSpec) : List Char → Option (List Given × Next)
  | [] => some ([], .goOn)
  | c :: cs => do
    let spec ← specs.find? (·.letter = some c)
    match spec.kind with
    | .flag =>
      let (given, next) ← letters specs cs
      some (⟨spec.name, ""⟩ :: given, next)
    | .takesValue =>
      if cs.isEmpty then some ([], .valueOf spec.name)
      else some ([⟨spec.name, String.ofList ((Text.afterLead? ['='] cs).getD cs)⟩], .goOn)
    | .last => some ([⟨spec.name, ""⟩], .stop)

/-- What an option given by its long name gives. -/
def longName (specs : List OptionSpec) (cs : List Char) : Option (List Given × Next) := do
  let name := (Text.beforeFirst? '=' cs).getD cs
  let spec ← specs.find? (·.name.toList = name)
  if name.length = cs.length then
    match spec.kind with
    | .flag => some ([⟨spec.name, ""⟩], .goOn)
    | .takesValue => some ([], .valueOf spec.name)
    | .last => some ([⟨spec.name, ""⟩], .stop)
  else if spec.kind = .takesValue then
    some ([⟨spec.name, String.ofList (cs.drop (name.length + 1))⟩], .goOn)
  else none

/-- Takes the options out of words. With `leading` set only those in front of the first other word
are taken. -/
def takeOptions (specs : List OptionSpec) (leading : Bool) : List String → Option Words
  | [] => some ⟨[], []⟩
  | arg :: args =>
    match arg.toList with
    | ['-', '-'] => if leading then none else some ⟨[], args⟩
    | '-' :: c :: cs => do
      let (given, next) ← if c = '-' then longName specs cs else letters specs (c :: cs)
      match next with
      | .goOn => (takeOptions specs leading args).map (·.addOptions given)
      | .stop => some ⟨given, []⟩
      | .valueOf name =>
        match args with
        | [] => none
        | value :: args =>
          if value.startsWith "-" && value ≠ "-" then none
          else (takeOptions specs leading args).map (·.addOptions (given ++ [⟨name, value⟩]))
    | _ =>
      if leading then some ⟨[], arg :: args⟩
      else (takeOptions specs leading args).map (·.addWord arg)

/-- Whether every option is given at most once. -/
def eachOnce (options : List Given) : Bool :=
  options.all fun o => options.countP (·.name = o.name) = 1

/-- The value of an option. -/
def valueOf? (options : List Given) (name : String) : Option String :=
  (options.find? (·.name = name)).map (·.value)

def isGiven (options : List Given) (name : String) : Bool := (valueOf? options name).isSome

/-- An optional path, which may not be empty. -/
def path? (options : List Given) (name : String) : Option (Option String) :=
  match valueOf? options name with
  | none => some none
  | some value => if value.isEmpty then none else some (some value)

/-- The format that is asked for. -/
def format? (options : List Given) : Option Format :=
  match valueOf? options "format" with
  | none => some .text
  | some "text" => some .text
  | some "json" => some .json
  | some _ => none

/-! ## Commands -/

/-- The options that hold for all commands. -/
def globalOptions : List OptionSpec :=
  [⟨"verbose", some 'v', .flag⟩, ⟨"database", some 'd', .takesValue⟩,
    ⟨"config", none, .takesValue⟩]

def versionOption : OptionSpec := ⟨"version", some 'V', .last⟩

def formatOption : OptionSpec := ⟨"format", some 'f', .takesValue⟩

/-- The options of a command, by its name. -/
def commandOptions? : String → Option (List OptionSpec)
  | "init" => some [⟨"force", none, .flag⟩]
  | "import" => some [⟨"file", some 'f', .takesValue⟩, ⟨"name", some 'n', .takesValue⟩]
  | "read" => some [⟨"no-link", none, .flag⟩, formatOption, ⟨"objects", none, .flag⟩]
  | "delete" | "classes" | "stats" => some []
  | "inventory" => some [formatOption]
  | _ => none

/-- The id of a model. -/
def modelId? (word : String) : Option Int := integerOfChars? word.toList

/-- The command of a name with its options and words. -/
def command? (name : String) (options : List Given) (words : List String) : Option Command :=
  match name, words with
  | "init", [] => some (.init (isGiven options "force"))
  | "import", [] => do
    let file ← (← path? options "file")
    some (.importFile file (valueOf? options "name"))
  | "read", [model] => do
    some (.read (← modelId? model) (!isGiven options "no-link") (← format? options)
      (isGiven options "objects"))
  | "delete", [model] => do some (.delete (← modelId? model))
  | "inventory", [model] => do some (.inventory (← modelId? model) (← format? options))
  | "classes", [] => some (.classes none)
  | "classes", [name] => some (.classes (some name))
  | "stats", [] => some .stats
  | _, _ => none

/-- The settings that hold for all commands. -/
structure Settings where
  verbose : Bool
  database : Option String
  config : Option String
deriving DecidableEq, Repr

/-- The settings in options that are each given once. -/
def settings? (options : List Given) : Option Settings := do
  if !eachOnce options then none
  else
    some {
      verbose := isGiven options "verbose"
      database := ← path? options "database"
      config := ← path? options "config" }

/-- The invocation of the command of a name, with the settings in front of the name and the words
behind it. -/
def invocation? (outer : Settings) (name : String) (args : List String) : Option Invocation := do
  let given ← takeOptions (globalOptions ++ (← commandOptions? name)) false args
  let inner ← settings? given.options
  some {
    verbose := outer.verbose || inner.verbose
    database := inner.database <|> outer.database
    config := (inner.config <|> outer.config).getD "cimdb.toml"
    command := ← command? name given.options given.words }

/-- What the words of a command line ask for. -/
def Request.parse? (args : List String) : Option Request := do
  let given ← takeOptions (versionOption :: globalOptions) true args
  let outer ← settings? given.options
  if isGiven given.options versionOption.name then some .version
  else
    match given.words with
    | [] => none
    | name :: args => (invocation? outer name args).map .run

end CimStore.Cli

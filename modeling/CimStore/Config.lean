import CimStore.Toml.Document
import CimStore.Toml.Print

/-!
# Settings

A `Config` holds what a settings file may say: where the database is, whether references are linked
when a model is read, and which log messages are wanted. All of it is optional. `Config.read?`
takes the settings from a TOML document, `Config.render` writes such a document.
-/

namespace CimStore

structure Config where
  database : Option String := none
  linkObjects : Option Bool := none
  logFilter : Option String := none
deriving DecidableEq, Repr

namespace Config

/-- The place of the database. -/
def databasePath (c : Config) : String := c.database.getD "cimdb.db"

/-- Whether references are linked when a model is read: yes unless the settings say no. -/
def linksObjects (c : Config) : Bool := c.linkObjects.getD true

/-- An optional member that is a string; nothing if it is something else. -/
def stringMember? (ms : Toml.Members) (key : String) : Option (Option String) :=
  match ms.get? key with
  | none => some none
  | some (.value (.string t)) => some (some t)
  | some _ => none

/-- An optional member that is a boolean; nothing if it is something else. -/
def booleanMember? (ms : Toml.Members) (key : String) : Option (Option Bool) :=
  match ms.get? key with
  | none => some none
  | some (.value (.boolean b)) => some (some b)
  | some _ => none

/-- The settings that a TOML document holds. Other members of the document do not matter. -/
def read? (text : String) : Option Config := do
  let ms ← Toml.read text
  return {
    database := ← stringMember? ms "database"
    linkObjects := ← booleanMember? ms "link_objects"
    logFilter := ← stringMember? ms "log_filter" }

/-- A line of a document that gives a member its value. -/
def line (key value : String) : String := key ++ " = " ++ value ++ "\n"

/-- The TOML document for the settings, with a line for each that is there. -/
def render (c : Config) : String :=
  c.database.elim "" (fun t => line "database" (Toml.quote t)) ++
  c.linkObjects.elim "" (fun b => line "link_objects" (if b then "true" else "false")) ++
  c.logFilter.elim "" (fun t => line "log_filter" (Toml.quote t))

end Config

end CimStore

import CimStore.Error

/-!
# What linking found

A reference that is not linked is a `LinkDiagnostic`: its target is not in the model, or is of a
class that the attribute does not admit. Neither is an error of the model; the target may stand in
another model. A `LinkReport` counts what was visited and linked and keeps the diagnostics in the
order in which they arose.
-/

namespace CimStore

/-- Which reference of which object a diagnostic is about. -/
structure ReferenceSite where
  cimType : String
  rdfid : String
  /-- The full name of the attribute. -/
  name : String
  /-- The rdf:ID of the target. -/
  target : String
deriving DecidableEq, Repr

/-- A reference that was not linked. -/
inductive LinkDiagnostic
  /-- There is no object with the rdf:ID. -/
  | dangling (site : ReferenceSite)
  /-- The attribute refused the object with the rdf:ID. -/
  | failure (site : ReferenceSite) (error : Error)
deriving DecidableEq, Repr

namespace LinkDiagnostic

def dangling? : LinkDiagnostic → Option ReferenceSite
  | dangling site => some site
  | failure _ _ => none

def failure? : LinkDiagnostic → Option (ReferenceSite × Error)
  | dangling _ => none
  | failure site error => some (site, error)

def message : LinkDiagnostic → String
  | dangling s =>
    s.cimType ++ " " ++ s.rdfid ++ ": " ++ s.name ++ " -> " ++ s.target ++ " not in model"
  | failure s error =>
    s.cimType ++ " " ++ s.rdfid ++ ": " ++ s.name ++ " -> " ++ s.target ++ ": " ++ error.message

end LinkDiagnostic

/-- The outcome of linking. -/
structure LinkReport where
  /-- Objects visited. -/
  objects : Nat := 0
  /-- Used references and reference sets that hold a value. -/
  references : Nat := 0
  /-- Links made. -/
  resolved : Nat := 0
  /-- The references not linked, in the order of the visit. -/
  diagnostics : List LinkDiagnostic := []
deriving DecidableEq

namespace LinkReport

def dangling (r : LinkReport) : List ReferenceSite :=
  r.diagnostics.filterMap LinkDiagnostic.dangling?

def failures (r : LinkReport) : List (ReferenceSite × Error) :=
  r.diagnostics.filterMap LinkDiagnostic.failure?

/-- Whether every reference was linked. -/
def isClean (r : LinkReport) : Bool := r.dangling.isEmpty && r.failures.isEmpty

/-- The report of two visits, one after the other. -/
def append (a b : LinkReport) : LinkReport where
  objects := a.objects + b.objects
  references := a.references + b.references
  resolved := a.resolved + b.resolved
  diagnostics := a.diagnostics ++ b.diagnostics

instance : Append LinkReport := ⟨append⟩

/-- The report in lines of text. -/
def display (r : LinkReport) : String :=
  "Linker Stats:\n" ++
  "  Objects: " ++ toString r.objects ++ "\n" ++
  "  Reference attributes: " ++ toString r.references ++ "\n" ++
  "  ✅ Resolved: " ++ toString r.resolved ++ "\n" ++
  "  🌍 Dangling: " ++ toString r.dangling.length ++ "\n" ++
  "  ❌ Failed: " ++ toString r.failures.length ++ "\n"

end LinkReport

end CimStore

import CimStore.Graph

/-!
# Linking a graph

`Graph.linkAll` visits every used reference of every object, in order, and links it to the object
that the index gives for its target. A target that is not found and a target that the attribute
refuses are reported and skipped; neither stops the visit.

The links are looked up in a table made before the visit (`Graph.links`), so the order in which the
objects were loaded does not matter.

`Graph.linkAllTo` is the visit as it runs: each diagnostic is handed to a sink when it arises.
-/

namespace CimStore

/-- Slot and report after one target of a reference has been visited. -/
def Object.linkTarget (links : SortedMap String Link) (o : Object) (d : Descriptor) (slot : Slot)
    (target : String) : Slot × LinkReport :=
  let site : ReferenceSite := ⟨o.cimType, o.rdfid, d.fullName, target⟩
  match links.get? target with
  | none => (slot, { diagnostics := [.dangling site] })
  | some l =>
    match d.link l slot with
    | .ok slot => (slot, { resolved := 1 })
    | .error e => (slot, { diagnostics := [.failure site e] })

/-- Slot and report after the targets have been visited in order. -/
def Object.linkTargets (links : SortedMap String Link) (o : Object) (d : Descriptor) :
    Slot → List String → Slot × LinkReport
  | slot, [] => (slot, {})
  | slot, target :: targets =>
    let (slot, first) := o.linkTarget links d slot target
    let (slot, rest) := o.linkTargets links d slot targets
    (slot, first ++ rest)

/-- Field and report after a visit. An attribute that is not used, holds no reference or has no
value is passed over. -/
def Object.linkField (links : SortedMap String Link) (o : Object) (f : Field) :
    Field × LinkReport :=
  if f.about.isUsed && !f.slot.targets.isEmpty then
    let (slot, report) := o.linkTargets links f.about f.slot f.slot.targets
    (f.withSlot slot, { references := 1 } ++ report)
  else (f, {})

/-- Fields and report after the fields have been visited in order. -/
def Object.linkFields (links : SortedMap String Link) (o : Object) :
    List Field → List Field × LinkReport
  | [] => ([], {})
  | f :: fs =>
    let (f, first) := o.linkField links f
    let (fs, rest) := o.linkFields links fs
    (f :: fs, first ++ rest)

theorem Object.about_linkField (links : SortedMap String Link) (o : Object) (f : Field) :
    (o.linkField links f).1.about = f.about := by
  rw [linkField]
  split
  · exact Field.about_withSlot ..
  · rfl

theorem Object.map_about_linkFields (links : SortedMap String Link) (o : Object)
    (fs : List Field) : (o.linkFields links fs).1.map Field.about = fs.map Field.about := by
  induction fs with
  | nil => rfl
  | cons f fs ih =>
    rw [linkFields, List.map_cons, List.map_cons, ih, about_linkField]

/-- Object and report after a visit. -/
def Object.linkAll (links : SortedMap String Link) (o : Object) : Object × LinkReport :=
  ({ o with
      fields := (o.linkFields links o.fields).1
      fields_about := (Object.map_about_linkFields ..).trans o.fields_about },
    { objects := 1 } ++ (o.linkFields links o.fields).2)

/-- Objects and report after the objects have been visited in order. -/
def linkObjects (links : SortedMap String Link) : List Object → List Object × LinkReport
  | [] => ([], {})
  | o :: os =>
    let (o, first) := o.linkAll links
    let (os, rest) := linkObjects links os
    (o :: os, first ++ rest)

/-- Links every object of a graph. The report is not kept in the graph. -/
def Graph.linkAll (g : Graph) : Graph × LinkReport :=
  let (objects, report) := linkObjects g.links g.objects
  ({ g with objects }, report)

/-! ## Linking with a sink -/

section Sink

variable {m : Type → Type} [Monad m] (sink : LinkDiagnostic → m Unit)

/-- `Object.linkTarget`, with a sink for what is not linked. -/
def Object.linkTargetTo (links : SortedMap String Link) (o : Object) (d : Descriptor) (slot : Slot)
    (target : String) : m (Slot × LinkReport) :=
  let site : ReferenceSite := ⟨o.cimType, o.rdfid, d.fullName, target⟩
  match links.get? target with
  | none => do
    sink (.dangling site)
    return (slot, { diagnostics := [.dangling site] })
  | some l =>
    match d.link l slot with
    | .ok slot => return (slot, { resolved := 1 })
    | .error e => do
      sink (.failure site e)
      return (slot, { diagnostics := [.failure site e] })

def Object.linkTargetsTo (links : SortedMap String Link) (o : Object) (d : Descriptor) :
    Slot → List String → m (Slot × LinkReport)
  | slot, [] => return (slot, {})
  | slot, target :: targets => do
    let (slot, first) ← o.linkTargetTo sink links d slot target
    let (slot, rest) ← o.linkTargetsTo links d slot targets
    return (slot, first ++ rest)

def Object.linkFieldTo (links : SortedMap String Link) (o : Object) (f : Field) :
    m ({f' : Field // f'.about = f.about} × LinkReport) :=
  if f.about.isUsed && !f.slot.targets.isEmpty then do
    let (slot, report) ← o.linkTargetsTo sink links f.about f.slot f.slot.targets
    return (⟨f.withSlot slot, f.about_withSlot slot⟩, { references := 1 } ++ report)
  else return (⟨f, rfl⟩, {})

def Object.linkFieldsTo (links : SortedMap String Link) (o : Object) : (fs : List Field) →
    m ({fs' : List Field // fs'.map Field.about = fs.map Field.about} × LinkReport)
  | [] => return (⟨[], List.map_nil⟩, {})
  | f :: fs => do
    let (f', first) ← o.linkFieldTo sink links f
    let (fs', rest) ← o.linkFieldsTo links fs
    return (⟨f' :: fs', by simp only [List.map_cons, f'.2, fs'.2]⟩, first ++ rest)

def Object.linkAllTo (links : SortedMap String Link) (o : Object) : m (Object × LinkReport) := do
  let (fields, report) ← o.linkFieldsTo sink links o.fields
  return ({ o with fields, fields_about := fields.2.trans o.fields_about },
    { objects := 1 } ++ report)

def linkObjectsTo (links : SortedMap String Link) : List Object → m (List Object × LinkReport)
  | [] => return ([], {})
  | o :: os => do
    let (o, first) ← o.linkAllTo sink links
    let (os, rest) ← linkObjectsTo links os
    return (o :: os, first ++ rest)

/-- Links every object of a graph and hands what is not linked to a sink, in order. -/
def Graph.linkAllTo (g : Graph) : m (Graph × LinkReport) := do
  let (objects, report) ← linkObjectsTo sink g.links g.objects
  return ({ g with objects }, report)

end Sink

end CimStore

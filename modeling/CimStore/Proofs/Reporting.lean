import CimStore.Service

/-!
# Diagnostics on their way to a sink

Linking hands each diagnostic to a sink when it arises and keeps it for the report. Whatever the
sink does, the outcome is that of linking without one, and the sink gets the diagnostics of the
report, each once and in its order:

* `Graph.linkAllTo_eq`: a visit with a sink is the visit without one, told to the sink afterwards;
* `Service.link_eq`: what the service notes when it links a graph.
-/

namespace CimStore

section Sink

variable {m : Type → Type} [Monad m] {α β γ : Type} (sink : LinkDiagnostic → m Unit)

/-- The diagnostics of an outcome are handed to the sink in their order. -/
def tell (p : α × LinkReport) : m (α × LinkReport) := do
  p.2.diagnostics.forM sink
  return p

variable [LawfulMonad m]

/-- What has nothing to tell is not heard of. -/
theorem tell_of_nil {p : α × LinkReport} (h : p.2.diagnostics = []) : tell sink p = pure p := by
  simp [tell, h]

/-- An outcome is told, whatever is made of it, if its diagnostics are kept. -/
theorem tell_map (p : α × LinkReport) {f : α × LinkReport → β × LinkReport}
    (h : (f p).2.diagnostics = p.2.diagnostics) :
    (tell sink p >>= fun q => pure (f q)) = tell sink (f p) := by
  simp [tell, h]

/-- Two outcomes are told one after the other. -/
theorem tell_append (p : α × LinkReport) {next : α → m (β × LinkReport)}
    {f : α → β × LinkReport} (h : ∀ a, next a = tell sink (f a)) (join : α → β → γ) :
    (tell sink p >>= fun q => next q.1 >>= fun r => pure (join q.1 r.1, q.2 ++ r.2)) =
      tell sink (join p.1 (f p.1).1, p.2 ++ (f p.1).2) := by
  have happend : (p.2 ++ (f p.1).2).diagnostics = p.2.diagnostics ++ (f p.1).2.diagnostics := rfl
  simp [tell, h, happend, List.forM_append]

/-! ## A visit and its sink -/

variable (links : SortedMap String Link) (o : Object)

theorem Object.linkTargetTo_eq (d : Descriptor) (slot : Slot) (target : String) :
    o.linkTargetTo sink links d slot target = tell sink (o.linkTarget links d slot target) := by
  unfold linkTargetTo linkTarget
  cases links.get? target with
  | none => simp [tell]
  | some l => cases h : d.link l slot <;> simp [h, tell]

theorem Object.linkTargetsTo_eq (d : Descriptor) (slot : Slot) (targets : List String) :
    o.linkTargetsTo sink links d slot targets = tell sink (o.linkTargets links d slot targets) := by
  induction targets generalizing slot with
  | nil => exact (tell_of_nil sink rfl).symm
  | cons target targets ih =>
    rw [linkTargetsTo, linkTargetTo_eq]
    exact tell_append sink (o.linkTarget links d slot target) ih fun _ slot => slot

/-- Field and report of a visit, with what the field is about. -/
def Object.linkedField (f : Field) : {f' : Field // f'.about = f.about} × LinkReport :=
  (⟨(o.linkField links f).1, o.about_linkField links f⟩, (o.linkField links f).2)

/-- Fields and report of a visit, with what the fields are about. -/
def Object.linkedFields (fs : List Field) :
    {fs' : List Field // fs'.map Field.about = fs.map Field.about} × LinkReport :=
  (⟨(o.linkFields links fs).1, o.map_about_linkFields links fs⟩, (o.linkFields links fs).2)

theorem Object.linkFieldTo_eq (f : Field) :
    o.linkFieldTo sink links f = tell sink (o.linkedField links f) := by
  unfold linkFieldTo linkedField
  split
  · rename_i hvisit
    have hfield : o.linkField links f =
        (f.withSlot (o.linkTargets links f.about f.slot f.slot.targets).1,
          { references := 1 } ++ (o.linkTargets links f.about f.slot f.slot.targets).2) := by
      rw [linkField, if_pos hvisit]
    simp only [linkTargetsTo_eq, hfield]
    exact tell_map sink (o.linkTargets links f.about f.slot f.slot.targets) rfl
  · rename_i hvisit
    have hfield : o.linkField links f = (f, {}) := by rw [linkField, if_neg hvisit]
    simp [hfield, tell]

theorem Object.linkFieldsTo_eq (fs : List Field) :
    o.linkFieldsTo sink links fs = tell sink (o.linkedFields links fs) := by
  induction fs with
  | nil => exact (tell_of_nil sink rfl).symm
  | cons f fs ih =>
    let join (f' : {f' : Field // f'.about = f.about})
        (fs' : {fs' : List Field // fs'.map Field.about = fs.map Field.about}) :
        {fs' : List Field // fs'.map Field.about = (f :: fs).map Field.about} :=
      ⟨f'.1 :: fs'.1, by simp only [List.map_cons, f'.2, fs'.2]⟩
    rw [linkFieldsTo, linkFieldTo_eq]
    exact tell_append sink (o.linkedField links f) (fun _ => ih) join

theorem Object.linkAllTo_eq : o.linkAllTo sink links = tell sink (o.linkAll links) := by
  rw [linkAllTo, linkFieldsTo_eq]
  exact tell_map sink (o.linkedFields links o.fields) rfl

theorem linkObjectsTo_eq (os : List Object) :
    linkObjectsTo sink links os = tell sink (linkObjects links os) := by
  induction os with
  | nil => exact (tell_of_nil sink rfl).symm
  | cons o os ih =>
    rw [linkObjectsTo, Object.linkAllTo_eq]
    exact tell_append sink (o.linkAll links) (fun _ => ih) _

/-- **A sink gets the diagnostics of the report, in their order**, and has no say in the outcome. -/
theorem Graph.linkAllTo_eq (g : Graph) : g.linkAllTo sink = tell sink g.linkAll := by
  rw [linkAllTo, linkObjectsTo_eq]
  exact tell_map sink (linkObjects g.links g.objects) rfl

end Sink

namespace Service

theorem forM_emit (ds : List LinkDiagnostic) (s : Service) :
    ds.forM emit s = ((), { s with diagnostics := s.diagnostics ++ ds }) := by
  induction ds generalizing s with
  | nil => rw [List.append_nil]; rfl
  | cons d ds ih =>
    show ds.forM emit { s with diagnostics := s.diagnostics ++ [d] } = _
    rw [ih, List.append_assoc]
    rfl

/-- The service notes the diagnostics of the report, in their order. -/
theorem link_eq (g : Graph) (s : Service) : link g s =
    (g.linkAll, { s with diagnostics := s.diagnostics ++ g.linkAll.2.diagnostics }) := by
  rw [link, Graph.linkAllTo_eq]
  show (g.linkAll, (g.linkAll.2.diagnostics.forM emit s).2) = _
  rw [forM_emit]

end Service

end CimStore

import CimStore.Object

/-!
# Objects by class

Objects are saved one class at a time. They are sorted so that the objects of each class stand next
to each other, in the order in which they came (`sortByType`). Each stretch of one class (`Span`) is
a `Batch`.
-/

namespace CimStore

/-- The classes of objects, in the order in which they first appear. -/
def classesOf (os : List Object) : List String := (os.map (·.cimType)).eraseDups

/-- Puts an object in front of the first one whose class is not ahead of its own. -/
def insertByType (classes : List String) (o : Object) : List Object → List Object
  | [] => [o]
  | p :: ps =>
    if classes.idxOf o.cimType ≤ classes.idxOf p.cimType then o :: p :: ps
    else p :: insertByType classes o ps

/-- The objects, sorted by where their class first appears. The sort is stable. -/
def sortByType (os : List Object) : List Object := os.foldr (insertByType (classesOf os)) []

/-- A stretch of objects of one class: those from `start` on that stand in front of `stop`. -/
structure Span where
  cimType : String
  start : Nat
  stop : Nat
deriving DecidableEq, Repr

/-- Takes the object at the place `i` into the last of the spans, if that is of its class, or else
into a new one. -/
def Span.add (spans : List Span) (i : Nat) (o : Object) : List Span :=
  match spans.getLast? with
  | none => [⟨o.cimType, i, i + 1⟩]
  | some last =>
    if last.cimType = o.cimType then spans.dropLast ++ [{ last with stop := i + 1 }]
    else spans ++ [⟨o.cimType, i, i + 1⟩]

/-- The stretches of one class in a list. -/
def spansOf (os : List Object) : List Span :=
  os.zipIdx.foldl (fun spans e => Span.add spans e.2 e.1) []

/-- Objects of one class that are saved together. -/
structure Batch where
  cimType : String
  objects : List Object
deriving DecidableEq

/-- The objects split by class: one batch per stretch of the sorted list. -/
def groupByType (os : List Object) : List Batch :=
  (spansOf (sortByType os)).map fun s => ⟨s.cimType, (sortByType os).extract s.start s.stop⟩

end CimStore

import ShapedGraph.Graph.Basic
import ShapedGraph.Object.Validate
import ShapedGraph.Object.Walk

/-! Walks over a graph and everything that its roots refer to. A walk enters each object once,
where it first meets it, so validation looks at each object once. -/

namespace ShapedGraph

/-- A walk as far as it has come: the handles of the objects it has entered and its visits. -/
structure Tour where
  entered : List Nat
  visits : List Visit

namespace Tour

def start : Tour := ⟨[], []⟩

/-- The object behind a handle has been entered. Without a handle it is met for the first time. -/
def hasEntered (tour : Tour) : Option Nat → Bool
  | some handle => tour.entered.contains handle
  | none => false

def enter (tour : Tour) (handle : Option Nat) : Tour :=
  { tour with entered := handle.toList ++ tour.entered }

def visitAll (tour : Tour) (visits : List Visit) : Tour :=
  { tour with visits := tour.visits ++ visits }

end Tour

mutual

def Object.tour (path : Path) (o : Object) (tour : Tour) : Tour :=
  match o with
  | ⟨cls, id, _, slots, _⟩ =>
    tourSlots path cls.layout slots (tour.visitAll (Object.idVisits id path))
termination_by structural o

def tourSlots (path : Path) (layout : List Property) (slots : List Slot) (tour : Tour) : Tour :=
  match slots, layout with
  | slot :: slots, p :: layout => tourSlots path layout slots (slot.tour p path tour)
  | _, _ => tour
termination_by structural slots

/-- Visits the content of a property of the object at `owner`. -/
def Slot.tour (p : Property) (owner : Path) (slot : Slot) (tour : Tour) : Tour :=
  match slot with
  | .scalar value => tour.visitAll (Slot.visits p owner (.scalar value))
  | .list values => tour.visitAll (Slot.visits p owner (.list values))
  | .reference target =>
    if target.isSet then target.tour (owner.member p.name) tour else tour
  | .references targets => tourReferences (owner.member p.name) 0 targets tour
termination_by structural slot

/-- Visits a reference, and what it refers to unless that has been entered before. -/
def Reference.tour (path : Path) (target : Reference) (tour : Tour) : Tour :=
  match target with
  | .object handle o =>
    if tour.hasEntered handle then tour
    else o.tour path ((tour.enter handle).visitAll [⟨path, .reference (.object handle o)⟩])
  | other => tour.visitAll [⟨path, .reference other⟩]
termination_by structural target

def tourReferences (path : Path) (position : Nat) (targets : List Reference) (tour : Tour) :
    Tour :=
  match targets with
  | [] => tour
  | target :: targets =>
    tourReferences path (position + 1) targets (target.tour (path.item position) tour)
termination_by structural targets

end

namespace Graph

/-- Visits the roots from `position` on, each at its own position. -/
def tourRoots : Nat → List Root → Tour → Tour
  | _, [], tour => tour
  | position, root :: roots, tour =>
    tourRoots (position + 1) roots (root.reference.tour (Path.root.item position) tour)

/-- Every visit of a walk over the graph. -/
def visits (graph : Graph) : List Visit := (tourRoots 0 graph.roots .start).visits

def entered? (visit : Visit) : Option (Located Object) :=
  match visit.value with
  | .reference (.object _ o) => some ⟨visit.path, o⟩
  | _ => none

/-- Every object of the graph, where a walk enters it. -/
def objects (graph : Graph) : List (Located Object) := graph.visits.filterMap entered?

/-- The objects of the class that a key names, with those of its subclasses if they are wanted. -/
def objectsOf (graph : Graph) (key : String) (subclasses : Bool) : List Object :=
  match graph.registry.get? key with
  | none => []
  | some cls =>
    let fits (o : Object) : Bool :=
      if subclasses then o.cls.isSubclassOf cls.iri else o.cls.iri == cls.iri
    (graph.objects.map (·.value)).filter fits

def validate {σ : Type} (handle : Handler σ) (graph : Graph) (verdict : Verdict σ) : Verdict σ :=
  graph.objects.foldl (fun verdict found =>
    found.value.validate handle found.path verdict) verdict

end Graph

end ShapedGraph

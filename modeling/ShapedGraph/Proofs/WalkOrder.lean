import ShapedGraph.Graph.Walk
import ShapedGraph.Proofs.Reach

/-! The order in which a walk enters the objects of a graph: depth first, and each shared object
only where it is met first. -/

namespace ShapedGraph

/-- The references in a slot of the object at `owner`, each at its own path. -/
def Slot.located (p : Property) (owner : Path) : Slot → List (Located Reference)
  | .reference target => [⟨owner.member p.name, target⟩]
  | .references targets => targets.zipIdx.map fun (target, position) =>
    ⟨(owner.member p.name).item position, target⟩
  | _ => []

/-- The references in all slots of the object at `path`, in layout order. -/
def Object.located (o : Object) (path : Path) : List (Located Reference) :=
  o.properties.flatMap fun (p, slot) => slot.located p path

/-- The objects that a walk enters, in order, when it has entered the objects behind some handles
and still has some references to follow. What an entered object refers to comes first. -/
inductive WalkOrder : List Nat → List (Located Reference) → List (Located Object) → Prop where
  | done (entered : List Nat) : WalkOrder entered [] []
  | leaf {entered : List Nat} {path : Path} {target : Reference} {rest : List (Located Reference)}
    {found : List (Located Object)} (leaf : target.isObject = false)
    (order : WalkOrder entered rest found) : WalkOrder entered (⟨path, target⟩ :: rest) found
  | again {entered : List Nat} {path : Path} {handle : Nat} {o : Object}
    {rest : List (Located Reference)} {found : List (Located Object)} (old : handle ∈ entered)
    (order : WalkOrder entered rest found) :
    WalkOrder entered (⟨path, .object (some handle) o⟩ :: rest) found
  | enter {entered : List Nat} {path : Path} {handle : Option Nat} {o : Object}
    {rest : List (Located Reference)} {found : List (Located Object)}
    (new : ∀ h, handle = some h → h ∉ entered)
    (order : WalkOrder (handle.toList ++ entered) (o.located path ++ rest) found) :
    WalkOrder entered (⟨path, .object handle o⟩ :: rest) (⟨path, o⟩ :: found)

/-- There is one such order. -/
theorem WalkOrder.unique {entered : List Nat} {targets : List (Located Reference)}
    {found found' : List (Located Object)} (order : WalkOrder entered targets found)
    (order' : WalkOrder entered targets found') : found = found' := by
  induction order generalizing found' with
  | done =>
    cases order'
    rfl
  | leaf leaf _ ih =>
    cases order' with
    | leaf _ rest => exact ih rest
    | again | enter => cases leaf
  | again old _ ih =>
    cases order' with
    | leaf leaf => cases leaf
    | again _ rest => exact ih rest
    | enter new => exact absurd old (new _ rfl)
  | enter new _ ih =>
    cases order' with
    | leaf leaf => cases leaf
    | again old => exact absurd old (new _ rfl)
    | enter _ rest => rw [ih rest]

def Graph.located (graph : Graph) : List (Located Reference) :=
  graph.roots.zipIdx.map fun (root, position) => ⟨Path.root.item position, root.reference⟩

namespace Tour

/-- The objects that a walk has entered, each where it was met. -/
def found (tour : Tour) : List (Located Object) := tour.visits.filterMap Graph.entered?

/-- Between two points of a walk some references have been followed: the objects entered on the way
come first in the order from the earlier point, and those of the order from the later point next. -/
def Follows (targets : List (Located Reference)) (before after : Tour) : Prop :=
  ∃ between, after.found = before.found ++ between ∧
    ∀ rest later, WalkOrder after.entered rest later →
      WalkOrder before.entered (targets ++ rest) (between ++ later)

variable {targets more : List (Located Reference)} {before middle after tour : Tour}

theorem Follows.trans (first : Follows targets before middle) (second : Follows more middle after) :
    Follows (targets ++ more) before after := by
  obtain ⟨early, foundEarly, orderEarly⟩ := first
  obtain ⟨late, foundLate, orderLate⟩ := second
  refine ⟨early ++ late, ?_, fun rest later order => ?_⟩
  · rw [foundLate, foundEarly, List.append_assoc]
  · rw [List.append_assoc, List.append_assoc]
    exact orderEarly _ _ (orderLate _ _ order)

theorem Follows.refl (tour : Tour) : Follows [] tour tour :=
  ⟨[], (List.append_nil _).symm, fun _ _ order => order⟩

theorem Follows.leaf {path : Path} {target : Reference} (leaf : target.isObject = false)
    (found : after.found = before.found) (entered : after.entered = before.entered) :
    Follows [⟨path, target⟩] before after := by
  refine ⟨[], found.trans (List.append_nil _).symm, fun rest later order => ?_⟩
  rw [entered] at order
  exact .leaf leaf order

theorem found_visitAll (tour : Tour) (visits : List Visit) :
    (tour.visitAll visits).found = tour.found ++ visits.filterMap Graph.entered? :=
  List.filterMap_append

theorem Follows.visitAll {visits : List Visit} (none : visits.filterMap Graph.entered? = []) :
    Follows [] tour (tour.visitAll visits) :=
  ⟨[], by rw [found_visitAll, none], fun _ _ order => order⟩

theorem hasEntered_eq_false_iff {handle : Option Nat} :
    tour.hasEntered handle = false ↔ ∀ h, handle = some h → h ∉ tour.entered := by
  cases handle <;> simp [hasEntered]

end Tour

/-- A walk from the object follows the references in its slots. -/
def Object.Followed (o : Object) : Prop := ∀ path tour,
  Tour.Follows (o.located path) tour (o.tour path tour)

theorem entered?_scalars (found : List (Located Scalar)) :
    (found.map (·.map Visited.scalar)).filterMap Graph.entered? = [] := by
  induction found with
  | nil => rfl
  | cons visit found ih => exact ih

theorem Reference.follows_tour {target : Reference} (inner : ∀ o ∈ target.objects, o.Followed)
    (path : Path) (tour : Tour) : Tour.Follows [⟨path, target⟩] tour (target.tour path tour) := by
  cases target with
  | unset | iri =>
    refine .leaf rfl ?_ rfl
    rw [Reference.tour, Tour.found_visitAll]
    · exact List.append_nil _
    · intro handle o same
      cases same
  | object handle o =>
    rw [Reference.tour]
    split
    · rename_i old
      cases handle with
      | none => cases old
      | some handle =>
        have among : handle ∈ tour.entered := List.contains_iff_mem.mp old
        exact ⟨[], (List.append_nil _).symm, fun rest later order => .again among order⟩
    · rename_i new
      have new := Tour.hasEntered_eq_false_iff.mp (Bool.eq_false_iff.mpr new)
      obtain ⟨between, found, order⟩ := inner o List.mem_cons_self path
        ((tour.enter handle).visitAll [⟨path, .reference (.object handle o)⟩])
      refine ⟨⟨path, o⟩ :: between, ?_, fun rest later after => .enter new (order rest later after)⟩
      rw [found, Tour.found_visitAll, List.append_assoc]
      rfl

theorem follows_tourReferences {targets : List Reference}
    (inner : ∀ target ∈ targets, ∀ o ∈ target.objects, o.Followed) (path : Path) (position : Nat)
    (tour : Tour) : Tour.Follows ((targets.zipIdx position).map fun (target, position) =>
      ⟨path.item position, target⟩) tour (tourReferences path position targets tour) := by
  induction targets generalizing position tour with
  | nil => exact .refl tour
  | cons target targets ih =>
    obtain ⟨here, later⟩ := List.forall_mem_cons.mp inner
    exact (Reference.follows_tour here _ tour).trans (ih later (position + 1) _)

theorem Slot.follows_tour {slot : Slot} (inner : ∀ o ∈ slot.objects, o.Followed) (p : Property)
    (owner : Path) (tour : Tour) :
    Tour.Follows (slot.located p owner) tour (slot.tour p owner tour) := by
  cases slot with
  | scalar value | list values => exact .visitAll (entered?_scalars _)
  | reference target =>
    rw [Slot.tour]
    split
    · exact Reference.follows_tour inner _ tour
    · rename_i unset
      refine .leaf ?_ rfl rfl
      cases target with
      | unset => rfl
      | iri | object => exact absurd rfl unset
  | references targets =>
    refine follows_tourReferences (fun target among o ho => inner o ?_) _ 0 tour
    exact List.mem_flatMap.mpr ⟨target, among, ho⟩

theorem follows_tourSlots {slots : List Slot}
    (inner : ∀ slot ∈ slots, ∀ o ∈ slot.objects, o.Followed) (path : Path) (layout : List Property)
    (tour : Tour) : Tour.Follows ((layout.zip slots).flatMap fun (p, slot) => slot.located p path)
      tour (tourSlots path layout slots tour) := by
  induction slots generalizing layout tour with
  | nil => cases layout <;> exact .refl tour
  | cons slot slots ih =>
    cases layout with
    | nil => exact .refl tour
    | cons p layout =>
      obtain ⟨here, later⟩ := List.forall_mem_cons.mp inner
      exact (Slot.follows_tour here p path tour).trans (ih later layout _)

theorem Object.followed (o : Object) : o.Followed := by
  -- The induction is on the objects that an object holds directly.
  induction o using Object.induct with
  | step o ih =>
    obtain ⟨cls, id, observedType, slots, extensions⟩ := o
    intro path tour
    have inner : ∀ slot ∈ slots, ∀ o ∈ slot.objects, o.Followed := fun slot among o ho =>
      ih o (List.mem_append_left _ (List.mem_flatMap.mpr ⟨slot, among, ho⟩))
    have named : (idVisits id path).filterMap Graph.entered? = [] := by
      cases id <;> rfl
    exact (Tour.Follows.visitAll named).trans (follows_tourSlots inner path cls.layout _)

namespace Graph

theorem follows_tourRoots (roots : List Root) (position : Nat) (tour : Tour) :
    Tour.Follows ((roots.zipIdx position).map fun (root, position) =>
      ⟨Path.root.item position, root.reference⟩) tour (tourRoots position roots tour) := by
  induction roots generalizing position tour with
  | nil => exact .refl tour
  | cons root roots ih =>
    have here : ∀ o ∈ root.reference.objects, o.Followed := fun o _ => o.followed
    exact (Reference.follows_tour here _ tour).trans (ih (position + 1) _)

/-- The objects of a graph are those that a walk enters from its roots, in order. -/
theorem walkOrder_objects (graph : Graph) : WalkOrder [] graph.located graph.objects := by
  obtain ⟨between, found, order⟩ := follows_tourRoots graph.roots 0 .start
  -- Nothing is left to follow after the roots.
  have all : graph.objects = between := found
  rw [all, ← List.append_nil between, ← List.append_nil graph.located]
  exact order [] [] (.done _)

end Graph

/-! ## Objects that are reached from one place only -/

/-- The references of an object, at every depth, lead to objects that no other reference shares, and
it has a slot for each place of its layout. -/
inductive Object.Unshared : Object → Prop where
  | intro {o : Object} (length : o.slots.length = o.cls.layout.length)
    (alone : ∀ slot ∈ o.slots, ∀ handle x, .object handle x ∈ slot.targets → handle = none)
    (inside : ∀ x ∈ o.declaredObjects, Unshared x) : Unshared o

theorem Slot.map_value_located (slot : Slot) (p : Property) (owner : Path) :
    (slot.located p owner).map (·.value) = slot.targets := by
  cases slot with
  | scalar | list | reference => rfl
  | references targets =>
    rw [located, List.map_map]
    exact List.zipIdx_map_fst ..

theorem Object.map_value_located {o : Object} (length : o.slots.length = o.cls.layout.length)
    (path : Path) : (o.located path).map (·.value) = o.slots.flatMap Slot.targets := by
  have slots : o.properties.map (·.2) = o.slots := List.map_snd_zip (Nat.le_of_eq length)
  rw [located, List.map_flatMap, ← slots, List.flatMap_map]
  simp only [Slot.map_value_located]

theorem Graph.map_value_located (graph : Graph) :
    graph.located.map (·.value) = graph.roots.map Root.reference := by
  calc graph.located.map (·.value)
    _ = (graph.roots.zipIdx.map Prod.fst).map Root.reference := by
      rw [located, List.map_map, List.map_map]
      rfl
    _ = graph.roots.map Root.reference := by rw [List.zipIdx_map_fst]

theorem Slot.objects_eq (slot : Slot) : slot.objects = slot.targets.flatMap Reference.objects := by
  cases slot with
  | scalar | list | references => rfl
  | reference target => exact (List.flatMap_singleton ..).symm

/-- A walk over objects that nothing shares enters all that their slots hold, each in its place. -/
theorem WalkOrder.values_eq {entered : List Nat} {targets : List (Located Reference)}
    {found : List (Located Object)} (order : WalkOrder entered targets found)
    (alone : ∀ handle o, .object handle o ∈ targets.map (·.value) → handle = none ∧ o.Unshared) :
    found.map (·.value) =
      ((targets.map (·.value)).flatMap Reference.objects).flatMap (Object.within false) := by
  induction order with
  | done => rfl
  | @leaf _ _ target _ _ leaf _ ih =>
    have none : target.objects = [] := by
      cases target with
      | unset | iri => rfl
      | object => cases leaf
    rw [List.map_cons, List.flatMap_cons, none, List.nil_append]
    exact ih fun handle o among => alone handle o (List.mem_cons_of_mem _ among)
  | again old =>
    cases (alone _ _ List.mem_cons_self).1
  | @enter _ path handle o rest _ new _ ih =>
    obtain ⟨-, ⟨length, single, inside⟩⟩ := alone handle o List.mem_cons_self
    have later : ∀ handle x, .object handle x ∈ (o.located path ++ rest).map (·.value) →
        handle = none ∧ x.Unshared := by
      intro handle x among
      rw [List.map_append, Object.map_value_located length] at among
      rcases List.mem_append.mp among with among | among
      · obtain ⟨slot, there, target⟩ := List.mem_flatMap.mp among
        have held : x ∈ slot.objects := Slot.mem_objects.mpr ⟨_, target, List.mem_cons_self⟩
        refine ⟨single slot there handle x target, inside x ?_⟩
        exact List.mem_flatMap.mpr ⟨slot, there, held⟩
      · exact alone handle x (List.mem_cons_of_mem _ among)
    have held : (o.slots.flatMap Slot.targets).flatMap Reference.objects = o.declaredObjects := by
      rw [List.flatMap_assoc]
      exact congrArg (List.flatMap · o.slots) (funext fun slot => slot.objects_eq.symm)
    rw [List.map_cons, ih later, List.map_append, Object.map_value_located length,
      List.flatMap_append, held, List.map_cons, List.flatMap_cons, List.flatMap_append,
      List.flatMap_append, Reference.objects, List.flatMap_singleton, Object.within_eq]
    rfl

end ShapedGraph

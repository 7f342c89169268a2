import ShapedGraph.Proofs.Forest
import ShapedGraph.Proofs.Sharing
import ShapedGraph.Proofs.WalkOrder

/-! The unfolding of a graph, in which every reference stands with all that it leads to, as often
as it occurs. A walk over the graph is the unfolding without the repeats. -/

namespace ShapedGraph

mutual

/-- The visits in an object at a path: its identifier, then the contents of its slots in layout
order, each reference to an object with the visits in that object below it. -/
def Object.unfold (path : Path) (o : Object) : Forest :=
  match o with
  | ⟨cls, id, _, slots, _⟩ =>
    Forest.leaves (Object.idVisits id path) ++ unfoldSlots path cls.layout slots
termination_by structural o

def unfoldSlots (path : Path) (layout : List Property) (slots : List Slot) : Forest :=
  match slots, layout with
  | slot :: slots, p :: layout => slot.unfold p path ++ unfoldSlots path layout slots
  | _, _ => .nil
termination_by structural slots

def Slot.unfold (p : Property) (owner : Path) (slot : Slot) : Forest :=
  match slot with
  | .scalar value => .leaves (Slot.visits p owner (.scalar value))
  | .list values => .leaves (Slot.visits p owner (.list values))
  | .reference target =>
    if target.isSet then target.unfold (owner.member p.name) .nil else .nil
  | .references targets => unfoldReferences (owner.member p.name) 0 targets
termination_by structural slot

/-- A reference with all that it leads to, and the visits beside it. -/
def Reference.unfold (path : Path) (target : Reference) (beside : Forest) : Forest :=
  match target with
  | .object handle o => .cons ⟨path, .reference (.object handle o)⟩ (o.unfold path) beside
  | other => .cons ⟨path, .reference other⟩ .nil beside
termination_by structural target

def unfoldReferences (path : Path) (position : Nat) (targets : List Reference) : Forest :=
  match targets with
  | [] => .nil
  | target :: targets =>
    target.unfold (path.item position) (unfoldReferences path (position + 1) targets)
termination_by structural targets

end

/-- The roots from `position` on, each with all that it leads to. -/
def unfoldRoots (position : Nat) : List Root → Forest
  | [] => .nil
  | root :: roots =>
    root.reference.unfold (Path.root.item position) (unfoldRoots (position + 1) roots)

/-- Everything that is reached from the roots of a graph through slots, in every place where it
is reached. -/
def Graph.unfolding (graph : Graph) : Forest := unfoldRoots 0 graph.roots

/-! ## A walk is a tour over the unfolding -/

theorem handle?_of_mem_scalars {found : List (Located Scalar)} {v : Visit}
    (there : v ∈ found.map (·.map Visited.scalar)) : v.value.handle? = none := by
  obtain ⟨_, -, rfl⟩ := List.mem_map.mp there
  rfl

theorem handle?_of_mem_idVisits {id : Option String} {path : Path} {v : Visit}
    (there : v ∈ Object.idVisits id path) : v.value.handle? = none := by
  cases id with
  | none => cases there
  | some id =>
    cases List.mem_singleton.mp there
    rfl

/-- A walk from the object is a tour over its unfolding. -/
def Object.Toured (o : Object) : Prop := ∀ path tour, o.tour path tour = (o.unfold path).tour tour

theorem Reference.tour_eq {target : Reference} (inner : ∀ o ∈ target.objects, o.Toured)
    (path : Path) (beside : Forest) (tour : Tour) :
    beside.tour (target.tour path tour) = (target.unfold path beside).tour tour := by
  cases target with
  | unset | iri => rfl
  | object handle o =>
    have inside := inner o List.mem_cons_self path
    rw [Reference.tour, Reference.unfold, Forest.tour, inside]
    rfl

theorem tourReferences_eq {targets : List Reference}
    (inner : ∀ target ∈ targets, ∀ o ∈ target.objects, o.Toured) (path : Path) (position : Nat)
    (tour : Tour) :
    tourReferences path position targets tour =
      (unfoldReferences path position targets).tour tour := by
  induction targets generalizing position tour with
  | nil => rfl
  | cons target targets ih =>
    obtain ⟨here, later⟩ := List.forall_mem_cons.mp inner
    rw [tourReferences, ih later, unfoldReferences, Reference.tour_eq here]

theorem Slot.tour_eq {slot : Slot} (inner : ∀ o ∈ slot.objects, o.Toured) (p : Property)
    (owner : Path) (tour : Tour) : slot.tour p owner tour = (slot.unfold p owner).tour tour := by
  cases slot with
  | scalar value | list values =>
    exact (Forest.tour_leaves (fun _ there => handle?_of_mem_scalars there) tour).symm
  | reference target =>
    rw [Slot.tour, Slot.unfold]
    split
    · exact Reference.tour_eq inner _ .nil tour
    · rfl
  | references targets =>
    refine tourReferences_eq (fun target among o ho => inner o ?_) _ 0 tour
    exact List.mem_flatMap.mpr ⟨target, among, ho⟩

theorem tourSlots_eq {slots : List Slot} (inner : ∀ slot ∈ slots, ∀ o ∈ slot.objects, o.Toured)
    (path : Path) (layout : List Property) (tour : Tour) :
    tourSlots path layout slots tour = (unfoldSlots path layout slots).tour tour := by
  induction slots generalizing layout tour with
  | nil => cases layout <;> rfl
  | cons slot slots ih =>
    cases layout with
    | nil => rfl
    | cons p layout =>
      obtain ⟨here, later⟩ := List.forall_mem_cons.mp inner
      rw [tourSlots, ih later, Slot.tour_eq here, unfoldSlots, Forest.tour_append]

theorem Object.toured (o : Object) : o.Toured := by
  induction o using Object.induct with
  | step o ih =>
    obtain ⟨cls, id, observedType, slots, extensions⟩ := o
    intro path tour
    have inner : ∀ slot ∈ slots, ∀ o ∈ slot.objects, o.Toured := fun slot among o ho =>
      ih o (List.mem_append_left _ (List.mem_flatMap.mpr ⟨slot, among, ho⟩))
    rw [Object.tour, tourSlots_eq inner, Object.unfold, Forest.tour_append,
      Forest.tour_leaves fun _ there => handle?_of_mem_idVisits there]

theorem tourRoots_eq (roots : List Root) (position : Nat) (tour : Tour) :
    Graph.tourRoots position roots tour = (unfoldRoots position roots).tour tour := by
  induction roots generalizing position tour with
  | nil => rfl
  | cons root roots ih =>
    rw [Graph.tourRoots, ih, unfoldRoots, Reference.tour_eq fun o _ => o.toured]

/-! ## What stands in the unfolding -/

/-- A reference where it is visited, with all that it leads to below it. -/
def Reference.occurrence (place : Path) : Reference → Occurrence
  | .object handle o => ⟨⟨place, .reference (.object handle o)⟩, o.unfold place⟩
  | other => ⟨⟨place, .reference other⟩, .nil⟩

def Occurrence.IsScalar (found : Occurrence) : Prop :=
  (∃ value, found.visit.value = .scalar value) ∧ found.below = .nil

namespace Forest

/-- Scalars apart, these references are what stands on top in a forest; an unset one need not. -/
structure Holds (forest : Forest) (targets : List Reference) : Prop where
  only : ∀ found ∈ forest.tops,
    found.IsScalar ∨ ∃ target ∈ targets, ∃ place, found = target.occurrence place
  every : ∀ target ∈ targets, target.isObject = true →
    ∃ place, target.occurrence place ∈ forest.tops

namespace Holds

variable {forest more beside : Forest} {targets others : List Reference}

theorem nil : Holds .nil [] := ⟨nofun, nofun⟩

theorem append (first : Holds forest targets) (second : Holds more others) :
    Holds (forest ++ more) (targets ++ others) := by
  refine ⟨fun found there => ?_, fun target among object => ?_⟩
  · rw [tops_append] at there
    rcases List.mem_append.mp there with there | there
    · refine (first.only found there).imp_right ?_
      rintro ⟨target, among, place, same⟩
      exact ⟨target, List.mem_append_left _ among, place, same⟩
    · refine (second.only found there).imp_right ?_
      rintro ⟨target, among, place, same⟩
      exact ⟨target, List.mem_append_right _ among, place, same⟩
  · rw [tops_append]
    rcases List.mem_append.mp among with among | among
    · obtain ⟨place, there⟩ := first.every target among object
      exact ⟨place, List.mem_append_left _ there⟩
    · obtain ⟨place, there⟩ := second.every target among object
      exact ⟨place, List.mem_append_right _ there⟩

theorem leaves {visits : List Visit} (scalar : ∀ v ∈ visits, ∃ value, v.value = .scalar value) :
    Holds (.leaves visits) [] := by
  refine ⟨fun found there => .inl ?_, nofun⟩
  induction visits with
  | nil => cases there
  | cons visit visits ih =>
    obtain ⟨here, later⟩ := List.forall_mem_cons.mp scalar
    rcases List.mem_cons.mp there with rfl | there
    · exact ⟨here, rfl⟩
    · exact ih later there

theorem unfold (holds : Holds beside targets) (place : Path) (target : Reference) :
    Holds (target.unfold place beside) (target :: targets) := by
  have tops : (target.unfold place beside).tops = target.occurrence place :: beside.tops := by
    cases target <;> rfl
  refine ⟨fun found there => ?_, fun other among object => ?_⟩
  · rw [tops] at there
    rcases List.mem_cons.mp there with rfl | there
    · exact .inr ⟨target, List.mem_cons_self, place, rfl⟩
    · refine (holds.only found there).imp_right ?_
      rintro ⟨other, among, place, same⟩
      exact ⟨other, List.mem_cons_of_mem _ among, place, same⟩
  · rw [tops]
    rcases List.mem_cons.mp among with rfl | among
    · exact ⟨place, List.mem_cons_self⟩
    · obtain ⟨place, there⟩ := holds.every other among object
      exact ⟨place, List.mem_cons_of_mem _ there⟩

theorem unfoldReferences (path : Path) (position : Nat) (targets : List Reference) :
    Holds (unfoldReferences path position targets) targets := by
  induction targets generalizing position with
  | nil => exact .nil
  | cons target targets ih => exact (ih (position + 1)).unfold _ target

theorem unfoldSlot (p : Property) (owner : Path) (slot : Slot) :
    Holds (slot.unfold p owner) slot.targets := by
  cases slot with
  | scalar | list =>
    refine leaves fun v there => ?_
    obtain ⟨found, -, rfl⟩ := List.mem_map.mp there
    exact ⟨found.value, rfl⟩
  | reference target =>
    rw [Slot.unfold]
    split
    · exact nil.unfold _ target
    · rename_i unset
      refine ⟨nofun, fun other among object => absurd ?_ unset⟩
      cases List.mem_singleton.mp among
      cases target with
      | unset | iri => cases object
      | object => rfl
  | references targets => exact unfoldReferences _ 0 targets

theorem unfoldSlots (path : Path) (layout : List Property) (slots : List Slot) :
    Holds (unfoldSlots path layout slots)
      ((layout.zip slots).flatMap fun (_, slot) => slot.targets) := by
  induction slots generalizing layout with
  | nil => cases layout <;> exact .nil
  | cons slot slots ih =>
    cases layout with
    | nil => exact .nil
    | cons p layout => exact (unfoldSlot p path slot).append (ih layout)

theorem unfoldObject (o : Object) (path : Path) :
    Holds (o.unfold path) (o.references false) := by
  obtain ⟨cls, id, observedType, slots, extensions⟩ := o
  have named : Holds (.leaves (Object.idVisits id path)) [] := by
    refine leaves fun v there => ?_
    cases id with
    | none => cases there
    | some id =>
      cases List.mem_singleton.mp there
      exact ⟨_, rfl⟩
  have both := named.append (unfoldSlots path cls.layout slots)
  rw [List.nil_append] at both
  rw [Object.references, if_neg Bool.false_ne_true, List.append_nil]
  exact both

theorem unfoldRoots (position : Nat) (roots : List Root) :
    Holds (unfoldRoots position roots) (roots.map Root.reference) := by
  induction roots generalizing position with
  | nil => exact .nil
  | cons root roots ih => exact (ih (position + 1)).unfold _ root.reference

end Holds

/-- What occurs in a forest are scalars and what some references lead to. -/
def LedTo (forest : Forest) (targets : List Reference) : Prop :=
  ∀ found ∈ forest.inside, found.IsScalar ∨ ∃ target ∈ targets, ∃ inner place,
    target.LeadsTo false inner ∧ found = inner.occurrence place

theorem Holds.ledTo {forest : Forest} {targets : List Reference} (holds : forest.Holds targets)
    (inner : ∀ target ∈ targets, ∀ o ∈ target.objects, ∀ path,
      (o.unfold path).LedTo (o.references false)) : forest.LedTo targets := by
  intro found among
  obtain ⟨top, there, here⟩ := mem_inside.mp among
  rcases holds.only top there with scalar | ⟨target, held, place, rfl⟩
  · rcases here with rfl | within
    · exact .inl scalar
    · rw [scalar.2] at within
      cases within
  · rcases here with rfl | within
    · exact .inr ⟨target, held, target, place, .here target, rfl⟩
    · cases target with
      | unset | iri => cases within
      | object handle o =>
        refine (inner _ held o List.mem_cons_self place found within).imp_right ?_
        rintro ⟨next, inside, last, place, leads, same⟩
        exact ⟨_, held, last, place, .inside inside leads, same⟩

theorem ledTo_unfold (o : Object) (path : Path) : (o.unfold path).LedTo (o.references false) := by
  induction o using Object.induct generalizing path with
  | step o ih =>
    refine (Holds.unfoldObject o path).ledTo fun target among x held path => ?_
    exact ih x (Object.mem_held_of_references among held) path

/-- What a reference on top leads to occurs in the forest. -/
theorem Holds.exists_inside {forest : Forest} {targets : List Reference}
    (holds : forest.Holds targets) {target found : Reference} (among : target ∈ targets)
    (leads : target.LeadsTo false found) (object : found.isObject = true) :
    ∃ place, found.occurrence place ∈ forest.inside := by
  induction leads generalizing forest targets with
  | here target =>
    obtain ⟨place, there⟩ := holds.every target among object
    exact ⟨place, mem_inside.mpr ⟨_, there, .inl rfl⟩⟩
  | @inside handle o inner found there further ih =>
    obtain ⟨path, top⟩ := holds.every _ among rfl
    obtain ⟨place, within⟩ := ih (Holds.unfoldObject o path) there object
    exact ⟨place, mem_inside.mpr ⟨_, top, .inr within⟩⟩

theorem LedTo.exists_of_handle? {forest : Forest} {targets : List Reference}
    (led : forest.LedTo targets) {found : Occurrence} (among : found ∈ forest.inside) {handle : Nat}
    (named : found.visit.value.handle? = some handle) : ∃ target ∈ targets, ∃ x place,
      target.LeadsTo false (.object (some handle) x) ∧
        found = (Reference.object (some handle) x).occurrence place := by
  rcases led found among with ⟨⟨value, scalar⟩, -⟩ | ⟨target, top, inner, place, leads, rfl⟩
  · rw [scalar] at named
    cases named
  · cases inner with
    | unset | iri => cases named
    | object =>
      cases named
      exact ⟨target, top, _, place, leads, rfl⟩

/-- The handles below an object do not depend on where it occurs. -/
theorem mem_handlesOf_unfold {o : Object} {path : Path} {handle : Nat} :
    handle ∈ handlesOf (o.unfold path).visits ↔ ∃ target ∈ o.references false, ∃ x,
      target.LeadsTo false (.object (some handle) x) := by
  rw [mem_handlesOf_visits]
  constructor
  · rintro ⟨found, among, named⟩
    obtain ⟨target, there, x, _, leads, -⟩ := (ledTo_unfold o path).exists_of_handle? among named
    exact ⟨target, there, x, leads⟩
  · rintro ⟨target, among, x, leads⟩
    obtain ⟨place, there⟩ := (Holds.unfoldObject o path).exists_inside among leads rfl
    exact ⟨_, there, rfl⟩

end Forest

namespace Graph

variable {graph : Graph}

theorem ledTo_unfolding (graph : Graph) :
    graph.unfolding.LedTo (graph.roots.map Root.reference) :=
  (Forest.Holds.unfoldRoots 0 graph.roots).ledTo fun _ _ o _ path => Forest.ledTo_unfold o path

/-- An object with a handle that occurs in the unfolding is reached in the graph. -/
theorem exists_of_mem_unfolding {found : Occurrence} (among : found ∈ graph.unfolding.inside)
    {handle : Nat} (named : found.visit.value.handle? = some handle) : ∃ o place,
      graph.Reaches false (.object (some handle) o) ∧
        found = (Reference.object (some handle) o).occurrence place := by
  obtain ⟨target, top, o, place, leads, same⟩ :=
    graph.ledTo_unfolding.exists_of_handle? among named
  obtain ⟨root, there, rfl⟩ := List.mem_map.mp top
  exact ⟨o, place, ⟨root, there, leads⟩, same⟩

/-- An object that is reached in the graph occurs in the unfolding. -/
theorem exists_mem_unfolding {found : Reference} (reached : graph.Reaches false found)
    (object : found.isObject = true) :
    ∃ place, found.occurrence place ∈ graph.unfolding.inside := by
  obtain ⟨root, there, leads⟩ := reached
  exact (Forest.Holds.unfoldRoots 0 graph.roots).exists_inside (List.mem_map_of_mem there) leads
    object

theorem consistent_unfolding (coherent : graph.Coherent) : graph.unfolding.Consistent where
  same first hf other ho handle named named' := by
    obtain ⟨o, place, reached, rfl⟩ := exists_of_mem_unfolding hf named
    obtain ⟨o', place', reached', rfl⟩ := exists_of_mem_unfolding ho named'
    cases coherent.same handle o o' reached.widen reached'.widen
    intro inner below
    exact Forest.mem_handlesOf_unfold.mpr (Forest.mem_handlesOf_unfold.mp below)
  acyclic found among handle named := by
    obtain ⟨o, place, reached, rfl⟩ := exists_of_mem_unfolding among named
    intro below
    obtain ⟨target, there, x, leads⟩ := Forest.mem_handlesOf_unfold.mp below
    have again := reached.further there leads
    cases coherent.same handle o x reached.widen again.widen
    exact Reference.not_leadsTo_outer there leads

/-- Below a shared object nothing is that has no handle. -/
theorem unshared_below (coherent : graph.Coherent) {found : Occurrence}
    (among : found ∈ graph.unfolding.inside) {handle : Nat}
    (named : found.visit.value.handle? = some handle) :
    found.below.visits.filter (·.value.isUnshared) = [] := by
  obtain ⟨o, place, reached, rfl⟩ := exists_of_mem_unfolding among named
  refine List.filter_eq_nil_iff.mpr fun visit there unshared => ?_
  obtain ⟨inner, within, rfl⟩ := List.mem_map.mp there
  rcases Forest.ledTo_unfold o place inner within with
    ⟨⟨value, scalar⟩, -⟩ | ⟨target, held, last, _, leads, rfl⟩
  · rw [scalar] at unshared
    cases unshared
  · cases last with
    | unset | iri => cases unshared
    | object handle x =>
      cases handle with
      | some handle => cases unshared
      | none =>
        exact coherent.shared_below reached.widen (Object.mem_references_true held) leads.widen rfl

/-- A walk over a graph visits what stands in the unfolding, in the order of the unfolding, without
the objects that occur before and all that is below these. So each object that the slots lead to
from the roots is visited once, where it first occurs in the unfolding. -/
theorem visits_eq_firsts (coherent : graph.Coherent) :
    graph.visits = graph.unfolding.firsts [] ∧
      (∀ handle o, graph.Reaches false (.object (some handle) o) → ∃ path,
        graph.unfolding.visits.find? (·.value.handle? = some handle) =
            some ⟨path, .reference (.object (some handle) o)⟩ ∧
          graph.visits.filter (·.value.handle? = some handle) =
            [⟨path, .reference (.object (some handle) o)⟩]) ∧
      (∀ o, graph.Reaches false (.object none o) →
        ∃ path, ⟨path, .reference (.object none o)⟩ ∈ graph.visits) ∧
      graph.visits.filter (·.value.isUnshared) =
        graph.unfolding.visits.filter (·.value.isUnshared) := by
  have consistent := consistent_unfolding coherent
  have ready : Forest.Ready [] graph.unfolding := fun _ _ _ _ old => nomatch old
  have entered : Forest.Entered .start [] := fun handle => by simp [Tour.start, handlesOf]
  have walk : graph.visits = graph.unfolding.firsts [] := by
    rw [visits, tourRoots_eq]
    exact (Forest.tour_spec consistent ready entered).1
  have unshared : graph.visits.filter (·.value.isUnshared) =
      graph.unfolding.visits.filter (·.value.isUnshared) := by
    rw [walk]
    exact Forest.filter_firsts_unshared fun found among _ named =>
      unshared_below coherent among named
  refine ⟨walk, fun handle o reached => ?_, fun o reached => ?_, unshared⟩
  · obtain ⟨place, there⟩ := exists_mem_unfolding reached rfl
    have among : handle ∈ handlesOf graph.unfolding.visits :=
      Forest.mem_handlesOf_visits.mpr ⟨_, there, rfl⟩
    obtain ⟨first, found⟩ := Forest.exists_find?_of_mem among
    obtain ⟨occurrence, within, rfl⟩ := List.mem_map.mp (List.mem_of_find?_eq_some found)
    have named : occurrence.visit.value.handle? = some handle := by
      simpa using List.find?_some found
    obtain ⟨o', path, reached', rfl⟩ := exists_of_mem_unfolding within named
    cases coherent.same handle o o' reached.widen reached'.widen
    refine ⟨path, found, ?_⟩
    have new : handle ∉ handlesOf [] := nofun
    rw [walk, Forest.filter_firsts_of_new consistent ready new, found]
    rfl
  · obtain ⟨place, there⟩ := exists_mem_unfolding reached rfl
    have among : ⟨place, .reference (.object none o)⟩ ∈
        graph.unfolding.visits.filter (·.value.isUnshared) :=
      List.mem_filter.mpr ⟨List.mem_map_of_mem there, rfl⟩
    rw [← unshared] at among
    exact ⟨place, (List.mem_filter.mp among).1⟩

end Graph

namespace Sample

/-- A basket holds a list of baskets. -/
def basket : ClassDecl where
  iri := "ex:Basket"
  compact := none
  nodeKind := none
  idAlias := none
  isAbstract := false
  extensible := none
  parents := []
  properties := [
    ⟨"holds", "ex:holds", some "holds", .object "ex:Basket", true, none, none, [], []⟩]

def basketRegistry : Registry := (Registry.build "" [basket]).toOption.getD ⟨"", [], []⟩

def basketClass : NodeClass := (basketRegistry.get? "ex:Basket").getD (.ofParents basket [] [])

def basketOf (id : String) (holds : List Reference) : Object :=
  ⟨basketClass, some id, none, [.references holds], []⟩

def smallBasket : Object := basketOf "ex:small" []

def largeBasket : Object :=
  basketOf "ex:large" [.object (some 1) smallBasket, .object (some 1) smallBasket]

def mediumBasket : Object := basketOf "ex:medium" [.object (some 1) smallBasket]

/-- A basket that holds another one twice, this other basket, and one that nothing shares. -/
def baskets : Graph :=
  ⟨basketRegistry, [⟨some 0, largeBasket⟩, ⟨some 1, smallBasket⟩, ⟨none, basketOf "ex:other" []⟩]⟩

/-- The baskets that are shared. -/
def basketTable : Nat → Option Object
  | 0 => some largeBasket
  | 1 => some smallBasket
  | 2 => some mediumBasket
  | _ => none

theorem closed_basketTable : Closed basketTable := by
  intro handle o there target held
  match handle with
  | 0 =>
    cases there
    rcases List.mem_cons.mp held with rfl | held
    · rfl
    · cases List.mem_singleton.mp held
      rfl
  | 1 =>
    cases there
    cases held
  | 2 =>
    cases there
    cases List.mem_singleton.mp held
    rfl
  | _ + 3 => cases there

theorem coherent_baskets : baskets.Coherent := by
  have based : baskets.BasedOn basketTable := by
    intro root there
    simp only [baskets, List.mem_cons, List.not_mem_nil, or_false] at there
    rcases there with rfl | rfl | rfl
    · exact .inl rfl
    · exact .inl rfl
    · exact .inr ⟨rfl, nofun⟩
  exact based.coherent closed_basketTable

end Sample

theorem Sample.smallBasket_visitedOnce : Sample.baskets.Coherent ∧
    Sample.baskets.Reaches false (.object (some 1) Sample.smallBasket) ∧
      Sample.baskets.visits = Sample.baskets.unfolding.firsts [] ∧
        (Sample.baskets.visits.filter (·.value.handle? = some 1)).length = 1 ∧
          (Sample.baskets.unfolding.visits.filter (·.value.handle? = some 1)).length = 3 := by
  obtain ⟨walk, once, -⟩ := Graph.visits_eq_firsts Sample.coherent_baskets
  have reached : Sample.baskets.Reaches false (.object (some 1) Sample.smallBasket) :=
    ⟨⟨some 1, Sample.smallBasket⟩, .tail _ (.head _), .here _⟩
  obtain ⟨path, -, visited⟩ := once 1 _ reached
  exact ⟨Sample.coherent_baskets, reached, walk, by rw [visited]; rfl, rfl⟩

end ShapedGraph

import ShapedGraph.Proofs.Envelope
import ShapedGraph.Proofs.Faults
import ShapedGraph.Proofs.Lookup
import ShapedGraph.Proofs.Unfolding

/-! The roots of a graph, each at its own position: a document lists every root there, and a walk
visits it there unless an earlier root leads to it. -/

namespace ShapedGraph

/-- The path is this outer one or goes on below it. -/
def Path.IsWithin (path outer : Path) : Prop := outer.segments <+: path.segments

namespace Path.IsWithin

variable {path middle outer : Path}

theorem refl (path : Path) : path.IsWithin path := List.prefix_rfl

theorem trans (inner : path.IsWithin middle) (further : middle.IsWithin outer) :
    path.IsWithin outer :=
  List.IsPrefix.trans further inner

theorem member (outer : Path) (name : String) : (outer.member name).IsWithin outer :=
  List.prefix_append ..

theorem item (outer : Path) (position : Nat) : (outer.item position).IsWithin outer :=
  List.prefix_append ..

/-- Different positions on top have no path below them in common. -/
theorem position_unique {i j : Nat} (first : path.IsWithin (root.item i))
    (second : path.IsWithin (root.item j)) : i = j := by
  obtain ⟨rest, same⟩ := first
  obtain ⟨rest', same'⟩ := second
  have both : Segment.index i :: rest = Segment.index j :: rest' := same.trans same'.symm
  exact Segment.index.inj (List.cons.inj both).1

end Path.IsWithin

/-! ## Visits below a path -/

namespace Tour

/-- Between two points of a walk only values at a path or below it are visited. -/
def Stays (outer : Path) (before after : Tour) : Prop :=
  ∃ more, after.visits = before.visits ++ more ∧ ∀ v ∈ more, v.path.IsWithin outer

namespace Stays

variable {outer inner : Path} {before middle after tour : Tour}

theorem refl (outer : Path) (tour : Tour) : Stays outer tour tour :=
  ⟨[], (List.append_nil _).symm, nofun⟩

theorem trans (first : Stays outer before middle) (second : Stays outer middle after) :
    Stays outer before after := by
  obtain ⟨early, same, within⟩ := first
  obtain ⟨late, same', within'⟩ := second
  refine ⟨early ++ late, by rw [same', same, List.append_assoc], fun v among => ?_⟩
  rcases List.mem_append.mp among with among | among
  · exact within v among
  · exact within' v among

theorem mono (stays : Stays inner before after) (below : inner.IsWithin outer) :
    Stays outer before after := by
  obtain ⟨more, same, within⟩ := stays
  exact ⟨more, same, fun v among => (within v among).trans below⟩

theorem visitAll {visits : List Visit} (within : ∀ v ∈ visits, v.path.IsWithin outer) :
    Stays outer tour (tour.visitAll visits) :=
  ⟨visits, rfl, within⟩

theorem mem {v : Visit} (stays : Stays outer before after) (among : v ∈ before.visits) :
    v ∈ after.visits := by
  obtain ⟨more, same, -⟩ := stays
  rw [same]
  exact List.mem_append_left _ among

theorem mem_or_within {v : Visit} (stays : Stays outer before after) (among : v ∈ after.visits) :
    v ∈ before.visits ∨ v.path.IsWithin outer := by
  obtain ⟨more, same, within⟩ := stays
  rw [same] at among
  exact (List.mem_append.mp among).imp_right (within v)

end Stays

end Tour

open Tour (Stays)

def Object.StaysBelow (o : Object) : Prop := ∀ path tour, Stays path tour (o.tour path tour)

theorem Reference.stays_tour {target : Reference} (inner : ∀ o ∈ target.objects, o.StaysBelow)
    (path : Path) (tour : Tour) : Stays path tour (target.tour path tour) := by
  have here (target : Reference) : ∀ v ∈ [(⟨path, .reference target⟩ : Visit)],
      v.path.IsWithin path := by
    simpa using Path.IsWithin.refl path
  cases target with
  | unset | iri => exact .visitAll (here _)
  | object handle o =>
    rw [Reference.tour]
    split
    · exact .refl path tour
    · have entered : Stays path tour ((tour.enter handle).visitAll
          [⟨path, .reference (.object handle o)⟩]) := ⟨_, rfl, here _⟩
      exact entered.trans (inner o List.mem_cons_self path _)

theorem stays_tourReferences {targets : List Reference}
    (inner : ∀ target ∈ targets, ∀ o ∈ target.objects, o.StaysBelow) (path : Path)
    (position : Nat) (tour : Tour) :
    Stays path tour (tourReferences path position targets tour) := by
  induction targets generalizing position tour with
  | nil => exact .refl path tour
  | cons target targets ih =>
    obtain ⟨here, later⟩ := List.forall_mem_cons.mp inner
    have first := Reference.stays_tour here (path.item position) tour
    exact (first.mono (.item ..)).trans (ih later _ _)

theorem Slot.isWithin_of_mem_scalars {p : Property} {owner : Path} {value : Option Scalar}
    {v : Visit} (among : v ∈ Slot.visits p owner (.scalar value)) : v.path.IsWithin owner := by
  obtain ⟨found, there, rfl⟩ := List.mem_map.mp among
  obtain ⟨_, -, rfl⟩ := Option.map_eq_some_iff.mp (Option.mem_toList.mp there)
  exact .member owner p.name

theorem Slot.isWithin_of_mem_list {p : Property} {owner : Path} {values : List Scalar}
    {v : Visit} (among : v ∈ Slot.visits p owner (.list values)) : v.path.IsWithin owner := by
  obtain ⟨found, there, rfl⟩ := List.mem_map.mp among
  obtain ⟨_, -, rfl⟩ := List.mem_map.mp there
  exact (Path.IsWithin.item ..).trans (.member owner p.name)

theorem Slot.stays_tour {slot : Slot} (inner : ∀ o ∈ slot.objects, o.StaysBelow) (p : Property)
    (owner : Path) (tour : Tour) : Stays owner tour (slot.tour p owner tour) := by
  cases slot with
  | scalar value => exact .visitAll fun v among => isWithin_of_mem_scalars among
  | list values => exact .visitAll fun v among => isWithin_of_mem_list among
  | reference target =>
    rw [Slot.tour]
    split
    · exact (Reference.stays_tour inner _ tour).mono (.member ..)
    · exact .refl owner tour
  | references targets =>
    refine (stays_tourReferences (fun target among o ho => inner o ?_) _ 0 tour).mono (.member ..)
    exact List.mem_flatMap.mpr ⟨target, among, ho⟩

theorem stays_tourSlots {slots : List Slot} (inner : ∀ slot ∈ slots, ∀ o ∈ slot.objects,
    o.StaysBelow) (path : Path) (layout : List Property) (tour : Tour) :
    Stays path tour (tourSlots path layout slots tour) := by
  induction slots generalizing layout tour with
  | nil => cases layout <;> exact .refl path tour
  | cons slot slots ih =>
    cases layout with
    | nil => exact .refl path tour
    | cons p layout =>
      obtain ⟨here, later⟩ := List.forall_mem_cons.mp inner
      exact (Slot.stays_tour here p path tour).trans (ih later layout _)

theorem Object.staysBelow (o : Object) : o.StaysBelow := by
  induction o using Object.induct with
  | step o ih =>
    obtain ⟨cls, id, observedType, slots, extensions⟩ := o
    intro path tour
    have inner : ∀ slot ∈ slots, ∀ o ∈ slot.objects, o.StaysBelow := fun slot among o ho =>
      ih o (List.mem_append_left _ (List.mem_flatMap.mpr ⟨slot, among, ho⟩))
    have named : ∀ v ∈ idVisits id path, v.path.IsWithin path := by
      cases id with
      | none => nofun
      | some id => simpa [idVisits] using Path.IsWithin.member path "id"
    exact (Stays.visitAll named).trans (stays_tourSlots inner path cls.layout _)

/-! ## Faults below a path -/

theorem Slot.isWithin_of_mem_faults {p : Property} {path : Path} {slot : Slot}
    {fault : Located ValidationError} (among : fault ∈ slot.faults p path) :
    fault.path.IsWithin path := by
  have values : ∀ found ∈ slot.values path, found.path.IsWithin path := by
    cases slot with
    | scalar value =>
      intro found there
      obtain ⟨_, -, rfl⟩ := Option.map_eq_some_iff.mp (Option.mem_toList.mp there)
      exact .refl path
    | list values =>
      intro found there
      obtain ⟨_, -, rfl⟩ := List.mem_map.mp there
      exact .item ..
    | reference | references => nofun
  rcases List.mem_append.mp among with among | among
  · obtain ⟨found, there, among⟩ := List.mem_flatMap.mp among
    obtain ⟨_, -, among⟩ := List.mem_filterMap.mp among
    obtain ⟨_, -, rfl⟩ := Option.map_eq_some_iff.mp among
    exact values found there
  · obtain ⟨_, -, rfl⟩ := Option.map_eq_some_iff.mp (Option.mem_toList.mp among)
    exact .refl path

theorem Object.isWithin_of_mem_faults {o : Object} {path : Path}
    {fault : Located ValidationError} (among : fault ∈ o.faults path) :
    fault.path.IsWithin path := by
  rcases List.mem_append.mp among with among | among
  · split at among
    · cases List.mem_singleton.mp among
      exact .member path "id"
    · cases among
  · obtain ⟨⟨p, slot⟩, -, among⟩ := List.mem_flatMap.mp among
    exact (Slot.isWithin_of_mem_faults among).trans (.member path p.name)

/-! ## The objects that a walk has entered -/

namespace Forest

/-- Every handle that has been entered is the one of an object that has been visited. -/
def Recorded (tour : Tour) : Prop := ∀ handle ∈ tour.entered, handle ∈ handlesOf tour.visits

theorem recorded_tour {forest : Forest} {tour : Tour} (recorded : Recorded tour) :
    Recorded (forest.tour tour) := by
  induction forest generalizing tour with
  | nil => exact recorded
  | cons visit below beside ihBelow ihBeside =>
    rw [Forest.tour]
    split
    · exact ihBeside recorded
    · refine ihBeside (ihBelow fun handle among => mem_handlesOf_append.mpr ?_)
      rcases List.mem_append.mp among with here | old
      · exact .inr (mem_handlesOf_cons.mpr (.inl (Option.mem_toList.mp here)))
      · exact .inl (recorded handle old)

theorem mem_of_mem_tour {forest : Forest} {tour : Tour} {v : Visit}
    (among : v ∈ (forest.tour tour).visits) : v ∈ tour.visits ∨ v ∈ forest.visits := by
  induction forest generalizing tour with
  | nil => exact .inl among
  | cons visit below beside ihBelow ihBeside =>
    rw [Forest.tour] at among
    rw [visits_cons, List.mem_cons, List.mem_append]
    rcases ihBeside among with among | among
    · split at among
      · exact .inl among
      · rcases ihBelow among with among | among
        · rcases List.mem_append.mp among with among | among
          · exact .inl among
          · exact .inr (.inl (List.mem_singleton.mp among))
        · exact .inr (.inr (.inl among))
    · exact .inr (.inr (.inr among))

end Forest

namespace Graph

variable {graph : Graph} {i : Nat} {root : Root}

/-- A walk over a graph has entered the shared objects that slots lead to from its roots. -/
theorem mem_entered_iff (coherent : graph.Coherent) {handle : Nat} :
    handle ∈ (tourRoots 0 graph.roots .start).entered ↔
      ∃ o, graph.Reaches false (.object (some handle) o) := by
  have ready : Forest.Ready [] graph.unfolding := fun _ _ _ _ old => nomatch old
  have entered : Forest.Entered .start [] := fun handle => by simp [Tour.start, handlesOf]
  have all := (Forest.tour_spec (consistent_unfolding coherent) ready entered).2 handle
  rw [tourRoots_eq, ← unfolding, all, List.nil_append, Forest.mem_handlesOf_visits]
  constructor
  · rintro ⟨found, among, named⟩
    obtain ⟨o, -, reached, -⟩ := exists_of_mem_unfolding among named
    exact ⟨o, reached⟩
  · rintro ⟨o, reached⟩
    obtain ⟨place, among⟩ := exists_mem_unfolding reached rfl
    exact ⟨_, among, rfl⟩

/-- A shared object that is reached is visited. -/
theorem exists_visit_of_reaches (coherent : graph.Coherent) {handle : Nat} {o : Object}
    (reached : graph.Reaches false (.object (some handle) o)) :
    ∃ path, ⟨path, .reference (.object (some handle) o)⟩ ∈
      (tourRoots 0 graph.roots .start).visits := by
  have entered := (mem_entered_iff coherent).mpr ⟨o, reached⟩
  rw [tourRoots_eq, ← unfolding] at entered ⊢
  have recorded : Forest.Recorded (graph.unfolding.tour .start) := Forest.recorded_tour nofun
  obtain ⟨v, among, named⟩ := Forest.mem_handlesOf.mp (recorded handle entered)
  rcases Forest.mem_of_mem_tour among with old | there
  · cases old
  · obtain ⟨found, within, rfl⟩ := List.mem_map.mp there
    obtain ⟨o', path, reached', rfl⟩ := exists_of_mem_unfolding within named
    cases coherent.same handle o o' reached.widen reached'.widen
    exact ⟨path, among⟩

/-- The graph with the roots in front of a position alone. -/
def before (graph : Graph) (i : Nat) : Graph := { graph with roots := graph.roots.take i }

theorem coherent_before (coherent : graph.Coherent) (i : Nat) : (graph.before i).Coherent := by
  have wider {target : Reference} (reached : (graph.before i).Reaches true target) :
      graph.Reaches true target := by
    obtain ⟨root, there, leads⟩ := reached
    exact ⟨root, List.mem_of_mem_take there, leads⟩
  exact ⟨fun handle o o' first second => coherent.same handle o o' (wider first) (wider second),
    fun handle o inner o' reached => coherent.labelled handle o inner o' (wider reached)⟩

/-- The root is a shared object to which slots lead from a root in front of it. -/
def ReachedBefore (graph : Graph) (i : Nat) (root : Root) : Prop :=
  root.handle ≠ none ∧ (graph.before i).Reaches false root.reference

theorem hasEntered_iff (coherent : graph.Coherent) (there : graph.roots[i]? = some root) :
    (tourRoots 0 (graph.before i).roots .start).hasEntered root.handle = true ↔
      graph.ReachedBefore i root := by
  obtain ⟨handle, o⟩ := root
  cases handle with
  | none => simp [Tour.hasEntered, ReachedBefore]
  | some handle =>
    have top : graph.Reaches true (.object (some handle) o) :=
      ⟨_, List.mem_of_getElem? there, .here _⟩
    simp only [Tour.hasEntered, List.contains_iff_mem, ReachedBefore,
      mem_entered_iff (coherent_before coherent i)]
    constructor
    · rintro ⟨o', reached⟩
      obtain ⟨first, among, leads⟩ := reached
      have again : graph.Reaches true (.object (some handle) o') :=
        ⟨first, List.mem_of_mem_take among, leads.widen⟩
      cases coherent.same handle o o' top again
      exact ⟨by simp, first, among, leads⟩
    · rintro ⟨-, reached⟩
      exact ⟨o, reached⟩

theorem tourRoots_append (front back : List Root) (position : Nat) (tour : Tour) :
    tourRoots position (front ++ back) tour =
      tourRoots (position + front.length) back (tourRoots position front tour) := by
  induction front generalizing position tour with
  | nil => rfl
  | cons root front ih =>
    rw [List.cons_append, tourRoots, ih, tourRoots, List.length_cons, Nat.add_right_comm]
    rfl

theorem stays_tour_root (root : Root) (path : Path) (tour : Tour) :
    Stays path tour (root.reference.tour path tour) :=
  Reference.stays_tour (fun o _ => o.staysBelow) path tour

/-- Roots are walked below their own positions. -/
theorem mem_tourRoots {roots : List Root} {position : Nat} {tour : Tour} {v : Visit}
    (among : v ∈ (tourRoots position roots tour).visits) : v ∈ tour.visits ∨
      ∃ j, position ≤ j ∧ j < position + roots.length ∧ v.path.IsWithin (Path.root.item j) := by
  induction roots generalizing position tour with
  | nil => exact .inl among
  | cons root roots ih =>
    rw [List.length_cons]
    rcases ih among with among | ⟨j, least, most, within⟩
    · refine ((stays_tour_root root _ tour).mem_or_within among).imp_right fun within => ?_
      exact ⟨position, by omega, by omega, within⟩
    · exact .inr ⟨j, by omega, by omega, within⟩

theorem mem_tourRoots_of_mem {roots : List Root} {position : Nat} {tour : Tour} {v : Visit}
    (among : v ∈ tour.visits) : v ∈ (tourRoots position roots tour).visits := by
  induction roots generalizing position tour with
  | nil => exact among
  | cons root roots ih => exact ih ((stays_tour_root root _ tour).mem among)

/-- A walk up to a root, the walk from this root, and the walk from the roots behind it. -/
theorem visits_eq_of_root (there : graph.roots[i]? = some root) :
    graph.visits = (tourRoots (i + 1) (graph.roots.drop (i + 1)) (root.reference.tour
      (Path.root.item i) (tourRoots 0 (graph.before i).roots .start))).visits := by
  obtain ⟨inside, found⟩ := List.getElem?_eq_some_iff.mp there
  have split : graph.roots = graph.roots.take i ++ root :: graph.roots.drop (i + 1) := by
    rw [← found, List.getElem_cons_drop, List.take_append_drop]
  have length : (graph.roots.take i).length = i := by
    rw [List.length_take]
    omega
  rw [visits]
  conv => lhs; rw [split]
  rw [tourRoots_append, length, Nat.zero_add, tourRoots, before]

theorem mem_visits_of_not_reachedBefore (coherent : graph.Coherent)
    (there : graph.roots[i]? = some root) (first : ¬graph.ReachedBefore i root) :
    ⟨Path.root.item i, .reference root.reference⟩ ∈ graph.visits := by
  have new := mt (hasEntered_iff coherent there).mp first
  rw [visits_eq_of_root there]
  refine mem_tourRoots_of_mem ?_
  rw [Root.reference, Reference.tour, if_neg new]
  refine (root.object.staysBelow _ _).mem ?_
  exact List.mem_append_right _ (List.mem_singleton_self _)

/-- A root to which an earlier one leads is visited below the earlier one, and nothing is visited at
its own position. -/
theorem visits_of_reachedBefore (coherent : graph.Coherent) (there : graph.roots[i]? = some root)
    (again : graph.ReachedBefore i root) :
    (∃ j < i, ∃ path : Path, path.IsWithin (Path.root.item j) ∧
        ⟨path, .reference root.reference⟩ ∈ graph.visits) ∧
      ∀ v ∈ graph.visits, ¬v.path.IsWithin (Path.root.item i) := by
  have old := (hasEntered_iff coherent there).mpr again
  have skipped : root.reference.tour (Path.root.item i)
      (tourRoots 0 (graph.before i).roots .start) = tourRoots 0 (graph.before i).roots .start := by
    rw [Root.reference, Reference.tour, if_pos old]
  rw [visits_eq_of_root there, skipped]
  have front (v : Visit) (among : v ∈ (tourRoots 0 (graph.before i).roots .start).visits) :
      ∃ j < i, v.path.IsWithin (Path.root.item j) := by
    rcases mem_tourRoots among with early | ⟨j, -, most, within⟩
    · cases early
    · exact ⟨j, by simp [before] at most; omega, within⟩
  constructor
  · obtain ⟨shared, reached⟩ := again
    obtain ⟨handle, named⟩ := Option.ne_none_iff_exists'.mp shared
    rw [Root.reference, named] at reached ⊢
    obtain ⟨path, among⟩ := exists_visit_of_reaches (coherent_before coherent i) reached
    obtain ⟨j, less, within⟩ := front _ among
    exact ⟨j, less, path, within, mem_tourRoots_of_mem among⟩
  · intro v among within
    rcases mem_tourRoots among with early | ⟨j, least, -, within'⟩
    · obtain ⟨j, less, within'⟩ := front v early
      have := within.position_unique within'
      omega
    · have := within.position_unique within'
      omega

/-- A handler that collects the faults of a graph has those of the objects that a walk enters. -/
theorem state_validate_collect (graph : Graph) :
    (graph.validate .collect (.initial [])).state = faultsOf graph.objects := by
  have passes : graph.validate .collect (.initial []) =
      (Verdict.initial []).reportAll .collect (faultsOf graph.objects) := by
    simp only [validate, Object.validate_eq]
    exact Verdict.foldl_reportAll ..
  rw [passes, Verdict.state_reportAll_collect]

theorem getElem?_encodeRoots {roots : List Root} (there : roots[i]? = some root) (seen : Seen) :
    ∃ seen', (encodeRoots roots seen)[i]? = some (root.object.encode seen').1 := by
  induction roots generalizing i seen with
  | nil => cases there
  | cons first roots ih =>
    rw [encodeRoots]
    cases i with
    | zero =>
      cases there
      exact ⟨seen, rfl⟩
    | succ i => exact ih there _

theorem path_of_entered? {v : Visit} {found : Located Object} (entered : entered? v = some found) :
    v.path = found.path := by
  unfold entered? at entered
  split at entered
  · cases entered
    rfl
  · cases entered

/-- A document that lists its roots has each of them in full at its own position. -/
theorem at?_toJson_root (there : graph.roots[i]? = some root) (several : 1 < graph.size) :
    ∃ seen, graph.toJson.at? [.name "@graph", .index i] =
      some (.object (root.object.encode seen).1) := by
  obtain ⟨registry, roots⟩ := graph
  match roots with
  | [] => cases several
  | [_] => exact absurd several (by simp [size])
  | first :: second :: rest =>
    obtain ⟨seen, written⟩ := getElem?_encodeRoots there
      ((first :: second :: rest).filterMap (·.handle))
    have listed : (Graph.mk registry (first :: second :: rest)).toJson.at? [.name "@graph"] =
        some (.list ((encodeRoots (first :: second :: rest)
          ((first :: second :: rest).filterMap (·.handle))).map .object)) := rfl
    refine ⟨seen, ?_⟩
    rw [show [Segment.name "@graph", .index i] = [.name "@graph"] ++ [.index i] from rfl,
      Json.at?_append, listed, Option.bind_some, Json.at?_index, List.getElem?_map, written]
    exact Json.at?_nil _

/-- A root is visited at its own position, with its faults there, exactly if it is not shared or no
earlier root leads to it. Otherwise it is visited below an earlier one, and nothing is visited or
reported at its own position. A document that lists the roots has it in full there all the same. -/
theorem mem_visits_root_iff (coherent : graph.Coherent) (there : graph.roots[i]? = some root) :
    (⟨Path.root.item i, .reference root.reference⟩ ∈ graph.visits ↔ ¬graph.ReachedBefore i root) ∧
      (¬graph.ReachedBefore i root →
        root.object.faults (Path.root.item i) ⊆ (graph.validate .collect (.initial [])).state) ∧
      (graph.ReachedBefore i root →
        (∃ j < i, ∃ path : Path, path.IsWithin (Path.root.item j) ∧
          ⟨path, .reference root.reference⟩ ∈ graph.visits) ∧
        ∀ fault ∈ (graph.validate .collect (.initial [])).state,
          ¬fault.path.IsWithin (Path.root.item i)) ∧
      (1 < graph.size → ∃ seen, graph.toJson.at? [.name "@graph", .index i] =
        some (.object (root.object.encode seen).1)) := by
  rw [state_validate_collect]
  refine ⟨⟨fun visited again => ?_, mem_visits_of_not_reachedBefore coherent there⟩,
    fun first fault among => ?_, fun again => ?_, at?_toJson_root there⟩
  · exact (visits_of_reachedBefore coherent there again).2 _ visited (.refl _)
  · have entered : ⟨Path.root.item i, root.object⟩ ∈ graph.objects :=
      List.mem_filterMap.mpr ⟨_, mem_visits_of_not_reachedBefore coherent there first, rfl⟩
    exact List.mem_flatMap.mpr ⟨_, entered, among⟩
  · obtain ⟨earlier, nowhere⟩ := visits_of_reachedBefore coherent there again
    refine ⟨earlier, fun fault among within => ?_⟩
    obtain ⟨found, entered, among⟩ := List.mem_flatMap.mp among
    obtain ⟨v, visited, same⟩ := List.mem_filterMap.mp entered
    have below : fault.path.IsWithin v.path :=
      path_of_entered? same ▸ Object.isWithin_of_mem_faults among
    rcases mem_tourRoots visited with early | ⟨j, -, -, within'⟩
    · cases early
    · cases within.position_unique (below.trans within')
      exact nowhere v visited within'

end Graph

namespace Sample

/-- Two baskets that hold the same one, which comes last. -/
def pantry : Graph :=
  ⟨basketRegistry, [⟨some 0, largeBasket⟩, ⟨some 2, mediumBasket⟩, ⟨some 1, smallBasket⟩]⟩

theorem coherent_pantry : pantry.Coherent := by
  have based : pantry.BasedOn basketTable := by
    intro root there
    simp only [pantry, List.mem_cons, List.not_mem_nil, or_false] at there
    rcases there with rfl | rfl | rfl <;> exact .inl rfl
  exact based.coherent closed_basketTable

/-- The medium basket is shared and comes second. The large one leads to what it holds, but not to
the basket itself, which is visited at its own position and listed there. -/
theorem mediumBasket_walkedAtRoot : pantry.Coherent ∧
    pantry.roots[1]? = some ⟨some 2, mediumBasket⟩ ∧
      pantry.ReachedBefore 1 ⟨some 1, smallBasket⟩ ∧
        ⟨Path.root.item 1, .reference (.object (some 2) mediumBasket)⟩ ∈ pantry.visits ∧
          ∃ seen, pantry.toJson.at? [.name "@graph", .index 1] =
            some (.object (mediumBasket.encode seen).1) := by
  have there : pantry.roots[1]? = some ⟨some 2, mediumBasket⟩ := rfl
  have held : pantry.ReachedBefore 1 ⟨some 1, smallBasket⟩ :=
    ⟨nofun, _, List.mem_singleton_self _, .inside List.mem_cons_self (.here _)⟩
  have first : ¬pantry.ReachedBefore 1 ⟨some 2, mediumBasket⟩ := by
    rw [← Graph.hasEntered_iff coherent_pantry there]
    decide +kernel
  obtain ⟨visited, -, -, listed⟩ := Graph.mem_visits_root_iff coherent_pantry there
  exact ⟨coherent_pantry, there, held, visited.mpr first, listed (by decide)⟩

/-- The small basket is a root of its own, but it is visited in the large one, which comes first,
and nothing is visited at its position. -/
theorem smallBasket_walkedInLargeBasket : baskets.Coherent ∧
    (baskets.roots.map (·.handle)).Nodup ∧ baskets.roots[1]? = some ⟨some 1, smallBasket⟩ ∧
      (baskets.visits.filter (·.value.handle? = some 1)).map (·.path) =
        [((Path.root.item 0).member "holds").item 0] ∧
      ∀ v ∈ baskets.visits, ¬v.path.IsWithin (Path.root.item 1) := by
  have again : baskets.ReachedBefore 1 ⟨some 1, smallBasket⟩ :=
    ⟨nofun, _, List.mem_singleton_self _, .inside List.mem_cons_self (.here _)⟩
  exact ⟨coherent_baskets, by decide, rfl, by decide +kernel,
    (Graph.visits_of_reachedBefore coherent_baskets rfl again).2⟩

end Sample

end ShapedGraph

import ShapedGraph.Graph.Walk

/-! Visits with everything below them, and what is left of such a forest when what has occurred
before is taken out of it. A tour over a forest leaves the same, if it has entered what has
occurred and if two occurrences of one object have the same objects below them. -/

namespace ShapedGraph

/-- The handle of the object that is visited. -/
def Visited.handle? : Visited → Option Nat
  | .reference (.object handle _) => handle
  | _ => none

/-- An object is visited that has no handle. -/
def Visited.isUnshared : Visited → Bool
  | .reference (.object none _) => true
  | _ => false

theorem Visited.isUnshared_eq_false {visited : Visited} {handle : Nat}
    (named : visited.handle? = some handle) : visited.isUnshared = false := by
  cases visited with
  | scalar => rfl
  | reference target =>
    cases target with
    | unset | iri => rfl
    | object =>
      cases named
      rfl

/-- The handles of the objects that are visited. -/
def handlesOf (visits : List Visit) : List Nat := visits.filterMap (·.value.handle?)

/-- Visits in order, the first with all that is below it and then all that comes beside it. -/
inductive Forest where
  | nil
  | cons (visit : Visit) (below beside : Forest)

/-- A visit in a forest, with all that is below it. -/
structure Occurrence where
  visit : Visit
  below : Forest

namespace Forest

def append : Forest → Forest → Forest
  | nil, more => more
  | cons visit below beside, more => cons visit below (beside.append more)

instance : Append Forest := ⟨append⟩

/-- The occurrences that are below no other. -/
def tops : Forest → List Occurrence
  | nil => []
  | cons visit below beside => ⟨visit, below⟩ :: beside.tops

/-- All occurrences, each of them before those below it. -/
def inside : Forest → List Occurrence
  | nil => []
  | cons visit below beside => ⟨visit, below⟩ :: (below.inside ++ beside.inside)

/-- All visits, each of them before those below it. -/
def visits (forest : Forest) : List Visit := forest.inside.map (·.visit)

/-- Visits with nothing below them. -/
def leaves : List Visit → Forest
  | [] => nil
  | visit :: visits => cons visit nil (leaves visits)

/-- The object that is visited has been visited earlier. -/
def repeats (earlier : List Visit) (visit : Visit) : Bool :=
  visit.value.handle?.any fun handle => (handlesOf earlier).contains handle

/-- The visits of a forest after earlier ones, without those of objects that occur before, earlier
or in the forest, and without all that is below these. -/
def firsts (earlier : List Visit) : Forest → List Visit
  | nil => []
  | cons visit below beside =>
    (if repeats earlier visit then [] else visit :: below.firsts (earlier ++ [visit])) ++
      beside.firsts (earlier ++ visit :: below.visits)

/-- A tour over a forest enters each object once. -/
def tour : Forest → Tour → Tour
  | nil, tour => tour
  | cons visit below beside, tour =>
    beside.tour (if tour.hasEntered visit.value.handle? then tour
      else below.tour ((tour.enter visit.value.handle?).visitAll [visit]))

variable {earlier more : List Visit} {visit : Visit} {below beside forest : Forest} {handle : Nat}

@[simp] theorem nil_append (forest : Forest) : nil ++ forest = forest := rfl

@[simp] theorem cons_append (visit : Visit) (below beside more : Forest) :
    cons visit below beside ++ more = cons visit below (beside ++ more) := rfl

@[simp] theorem tops_append (forest more : Forest) :
    (forest ++ more).tops = forest.tops ++ more.tops := by
  induction forest with
  | nil => rfl
  | cons visit below beside _ ih => exact congrArg _ ih

@[simp] theorem visits_cons (visit : Visit) (below beside : Forest) :
    (cons visit below beside).visits = visit :: (below.visits ++ beside.visits) := by
  simp [visits, inside]

theorem tour_append (forest more : Forest) (tour : Tour) :
    (forest ++ more).tour tour = more.tour (forest.tour tour) := by
  induction forest generalizing tour with
  | nil => rfl
  | cons visit below beside _ ih => exact ih _

theorem tour_leaves {visits : List Visit} (scalar : ∀ v ∈ visits, v.value.handle? = none)
    (tour : Tour) : (leaves visits).tour tour = tour.visitAll visits := by
  induction visits generalizing tour with
  | nil => simp [leaves, Forest.tour, Tour.visitAll]
  | cons visit visits ih =>
    obtain ⟨here, later⟩ := List.forall_mem_cons.mp scalar
    rw [leaves, Forest.tour, here]
    exact (ih later _).trans (by simp [Forest.tour, Tour.visitAll, Tour.enter, Tour.hasEntered])

theorem mem_inside {found : Occurrence} :
    found ∈ forest.inside ↔ ∃ top ∈ forest.tops, found = top ∨ found ∈ top.below.inside := by
  induction forest with
  | nil => simp [inside, tops]
  | cons visit below beside _ ih => simp [inside, tops, ih, or_assoc]

theorem mem_handlesOf : handle ∈ handlesOf earlier ↔
    ∃ visit ∈ earlier, visit.value.handle? = some handle :=
  List.mem_filterMap

theorem mem_handlesOf_append : handle ∈ handlesOf (earlier ++ more) ↔
    handle ∈ handlesOf earlier ∨ handle ∈ handlesOf more := by
  simp [handlesOf]

theorem mem_handlesOf_cons : handle ∈ handlesOf (visit :: more) ↔
    visit.value.handle? = some handle ∨ handle ∈ handlesOf more := by
  simp [mem_handlesOf]

theorem mem_handlesOf_visits : handle ∈ handlesOf forest.visits ↔
    ∃ found ∈ forest.inside, found.visit.value.handle? = some handle := by
  rw [mem_handlesOf]
  constructor
  · rintro ⟨visit, among, named⟩
    obtain ⟨found, there, rfl⟩ := List.mem_map.mp among
    exact ⟨found, there, named⟩
  · rintro ⟨found, there, named⟩
    exact ⟨found.visit, List.mem_map_of_mem there, named⟩

theorem repeats_iff : repeats earlier visit = true ↔
    ∃ handle, visit.value.handle? = some handle ∧ handle ∈ handlesOf earlier := by
  cases named : visit.value.handle? <;> simp [repeats, named]

/-- Occurrences of one object have the same objects below them, and not that object itself. -/
structure Consistent (forest : Forest) : Prop where
  same : ∀ first ∈ forest.inside, ∀ other ∈ forest.inside, ∀ handle,
    first.visit.value.handle? = some handle → other.visit.value.handle? = some handle →
      handlesOf first.below.visits ⊆ handlesOf other.below.visits
  acyclic : ∀ found ∈ forest.inside, ∀ handle,
    found.visit.value.handle? = some handle → handle ∉ handlesOf found.below.visits

/-- If an object in a forest has been visited earlier, so have the objects below it. -/
def Ready (earlier : List Visit) (forest : Forest) : Prop :=
  ∀ found ∈ forest.inside, ∀ handle, found.visit.value.handle? = some handle →
    handle ∈ handlesOf earlier → handlesOf found.below.visits ⊆ handlesOf earlier

theorem inside_below_subset : below.inside ⊆ (cons visit below beside).inside :=
  fun _ h => List.mem_cons_of_mem _ (List.mem_append_left _ h)

theorem inside_beside_subset : beside.inside ⊆ (cons visit below beside).inside :=
  fun _ h => List.mem_cons_of_mem _ (List.mem_append_right _ h)

theorem inside_subset {found : Occurrence} (among : found ∈ forest.inside) :
    found.below.inside ⊆ forest.inside := by
  induction forest with
  | nil => cases among
  | cons visit below beside ihBelow ihBeside =>
    rcases List.mem_cons.mp among with rfl | among
    · exact inside_below_subset
    · rcases List.mem_append.mp among with among | among
      · exact List.Subset.trans (ihBelow among) inside_below_subset
      · exact List.Subset.trans (ihBeside among) inside_beside_subset

theorem Consistent.mono {part : Forest} (consistent : Consistent forest)
    (subset : part.inside ⊆ forest.inside) : Consistent part where
  same first hf other ho := consistent.same first (subset hf) other (subset ho)
  acyclic found hf := consistent.acyclic found (subset hf)

theorem Consistent.enter (consistent : Consistent (cons visit below beside)) : Consistent below :=
  consistent.mono inside_below_subset

theorem Consistent.pass (consistent : Consistent (cons visit below beside)) : Consistent beside :=
  consistent.mono inside_beside_subset

namespace Ready

/-- What is below an object does not lead back to it, so entering the object changes nothing. -/
theorem enter (consistent : Consistent (cons visit below beside))
    (ready : Ready earlier (cons visit below beside)) : Ready (earlier ++ [visit]) below := by
  intro found among handle named old inner hi
  rcases mem_handlesOf_append.mp old with old | new
  · have past := ready found (inside_below_subset among) handle named old hi
    exact mem_handlesOf_append.mpr (.inl past)
  · have here : visit.value.handle? = some handle := by simpa [mem_handlesOf] using new
    have back : handle ∈ handlesOf below.visits := mem_handlesOf_visits.mpr ⟨found, among, named⟩
    exact absurd back (consistent.acyclic ⟨visit, below⟩ List.mem_cons_self handle here)

/-- Once an occurrence has been passed with all that is below it, so have been the objects that it
shares with what comes beside it, and the objects below these. -/
theorem pass (consistent : Consistent (cons visit below beside))
    (ready : Ready earlier (cons visit below beside)) :
    Ready (earlier ++ visit :: below.visits) beside := by
  intro found among handle named old inner hi
  have there : found ∈ (cons visit below beside).inside := inside_beside_subset among
  refine mem_handlesOf_append.mpr ?_
  rcases mem_handlesOf_append.mp old with old | new
  · exact .inl (ready found there handle named old hi)
  · right
    rcases mem_handlesOf_cons.mp new with here | new
    · have same := consistent.same found there ⟨visit, below⟩ List.mem_cons_self handle named here
      exact mem_handlesOf_cons.mpr (.inr (same hi))
    · obtain ⟨other, within, named'⟩ := mem_handlesOf_visits.mp new
      have same :=
        consistent.same found there other (inside_below_subset within) handle named named'
      obtain ⟨last, hl, name⟩ := mem_handlesOf_visits.mp (same hi)
      refine mem_handlesOf_cons.mpr (.inr (mem_handlesOf_visits.mpr ⟨last, ?_, name⟩))
      exact inside_subset within hl

end Ready

/-- A tour has entered exactly the objects that have been visited. -/
def Entered (tour : Tour) (earlier : List Visit) : Prop :=
  ∀ handle, handle ∈ tour.entered ↔ handle ∈ handlesOf earlier

theorem Entered.hasEntered {tour : Tour} (entered : Entered tour earlier) (visit : Visit) :
    tour.hasEntered visit.value.handle? = repeats earlier visit := by
  cases named : visit.value.handle? with
  | none => simp [Tour.hasEntered, repeats, named]
  | some handle => simp [Tour.hasEntered, repeats, named, entered handle]

theorem Entered.enter {tour : Tour} (entered : Entered tour earlier) (visit : Visit) :
    Entered ((tour.enter visit.value.handle?).visitAll [visit]) (earlier ++ [visit]) := by
  intro handle
  have step : ((tour.enter visit.value.handle?).visitAll [visit]).entered =
      visit.value.handle?.toList ++ tour.entered := rfl
  rw [step, List.mem_append, entered handle, mem_handlesOf_append, or_comm]
  simp [mem_handlesOf]

/-- After a visit that repeats an earlier one, nothing is entered on the way to what is beside. -/
theorem Ready.entered_of_repeats {tour : Tour} (ready : Ready earlier (cons visit below beside))
    (again : repeats earlier visit = true) (entered : Entered tour earlier) :
    Entered tour (earlier ++ visit :: below.visits) := by
  obtain ⟨old, named, among⟩ := repeats_iff.mp again
  have inner := ready ⟨visit, below⟩ List.mem_cons_self old named among
  intro handle
  rw [entered handle, mem_handlesOf_append, mem_handlesOf_cons]
  constructor
  · exact .inl
  · rintro (past | here | there)
    · exact past
    · cases named.symm.trans here
      exact among
    · exact inner there

/-- A tour over a forest adds the first visits to each object, and enters all objects. -/
theorem tour_spec (consistent : Consistent forest) (ready : Ready earlier forest) {tour : Tour}
    (entered : Entered tour earlier) :
    (forest.tour tour).visits = tour.visits ++ forest.firsts earlier ∧
      Entered (forest.tour tour) (earlier ++ forest.visits) := by
  induction forest generalizing earlier tour with
  | nil => exact ⟨(List.append_nil _).symm, (List.append_nil earlier).symm ▸ entered⟩
  | cons visit below beside ihBelow ihBeside =>
    have later : earlier ++ (cons visit below beside).visits =
        (earlier ++ visit :: below.visits) ++ beside.visits := by
      simp
    rw [later, Forest.tour, entered.hasEntered, firsts]
    cases again : repeats earlier visit with
    | true =>
      exact ihBeside consistent.pass (ready.pass consistent)
        (ready.entered_of_repeats again entered)
    | false =>
      obtain ⟨here, entered⟩ := ihBelow consistent.enter (ready.enter consistent)
        (entered.enter visit)
      rw [List.append_assoc] at entered
      obtain ⟨next, entered⟩ := ihBeside consistent.pass (ready.pass consistent) entered
      refine ⟨?_, entered⟩
      calc _ = (below.tour ((tour.enter visit.value.handle?).visitAll [visit])).visits ++
            beside.firsts (earlier ++ visit :: below.visits) := next
        _ = _ := by
          rw [here]
          simp [Tour.visitAll, Tour.enter]

/-! ## What is left of each object -/

theorem find?_eq_none_iff {visits : List Visit} :
    visits.find? (·.value.handle? = some handle) = none ↔ handle ∉ handlesOf visits := by
  simp [mem_handlesOf]

theorem exists_find?_of_mem {visits : List Visit} (there : handle ∈ handlesOf visits) :
    ∃ first, visits.find? (·.value.handle? = some handle) = some first := by
  cases first : visits.find? (·.value.handle? = some handle) with
  | none => exact absurd there (find?_eq_none_iff.mp first)
  | some visit => exact ⟨visit, rfl⟩

theorem not_repeats (new : handle ∉ handlesOf earlier)
    (named : visit.value.handle? = some handle) : repeats earlier visit = false := by
  rw [Bool.eq_false_iff, Ne, repeats_iff]
  rintro ⟨other, same, among⟩
  cases named.symm.trans same
  exact new among

/-- An object that has been visited earlier is not visited again. -/
theorem filter_firsts_of_visited (old : handle ∈ handlesOf earlier) :
    (forest.firsts earlier).filter (·.value.handle? = some handle) = [] := by
  induction forest generalizing earlier with
  | nil => rfl
  | cons visit below beside ihBelow ihBeside =>
    have past : ∀ more, handle ∈ handlesOf (earlier ++ more) := fun more =>
      mem_handlesOf_append.mpr (.inl old)
    rw [firsts, List.filter_append, ihBeside (past _), List.append_nil]
    by_cases named : visit.value.handle? = some handle
    · rw [if_pos (repeats_iff.mpr ⟨handle, named, old⟩)]
      rfl
    · split
      · rfl
      · simp [named, ihBelow (past [visit])]

/-- An object that has not been visited earlier is visited once, where it first occurs. -/
theorem filter_firsts_of_new (consistent : Consistent forest) (ready : Ready earlier forest)
    (new : handle ∉ handlesOf earlier) :
    (forest.firsts earlier).filter (·.value.handle? = some handle) =
      (forest.visits.find? (·.value.handle? = some handle)).toList := by
  induction forest generalizing earlier with
  | nil => rfl
  | cons visit below beside ihBelow ihBeside =>
    have next := ihBeside consistent.pass (ready.pass consistent)
    have under := ihBelow consistent.enter (ready.enter consistent)
    rw [mem_handlesOf_append, mem_handlesOf_cons] at next
    rw [mem_handlesOf_append, mem_handlesOf_cons] at under
    rw [firsts, List.filter_append, visits_cons]
    by_cases named : visit.value.handle? = some handle
    · have past : ∀ more, handle ∈ handlesOf (earlier ++ visit :: more) := fun more =>
        mem_handlesOf_append.mpr (.inr (mem_handlesOf_cons.mpr (.inl named)))
      simp [not_repeats new named, named, filter_firsts_of_visited (past _)]
    · have empty : handle ∉ handlesOf [] := nofun
      cases again : repeats earlier visit with
      | true =>
        obtain ⟨other, same, among⟩ := repeats_iff.mp again
        have inner := ready ⟨visit, below⟩ List.mem_cons_self other same among
        have absent : handle ∉ handlesOf below.visits := fun there => new (inner there)
        simp [new, named, absent, find?_eq_none_iff.mpr absent, next]
      | false =>
        have under := under (by simp [new, named, empty])
        by_cases there : handle ∈ handlesOf below.visits
        · have beyond : handle ∈ handlesOf (earlier ++ visit :: below.visits) :=
            mem_handlesOf_append.mpr (.inr (mem_handlesOf_cons.mpr (.inr there)))
          obtain ⟨found, first⟩ := exists_find?_of_mem there
          simp [named, under, filter_firsts_of_visited beyond, first]
        · simp [named, under, next, new, there, find?_eq_none_iff.mpr there]

/-- Every occurrence of an object without a handle is left, unless it is below a shared one. -/
theorem filter_firsts_unshared (alone : ∀ found ∈ forest.inside, ∀ handle,
    found.visit.value.handle? = some handle →
      found.below.visits.filter (·.value.isUnshared) = []) :
    (forest.firsts earlier).filter (·.value.isUnshared) =
      forest.visits.filter (·.value.isUnshared) := by
  induction forest generalizing earlier with
  | nil => rfl
  | cons visit below beside ihBelow ihBeside =>
    have under : (below.firsts (earlier ++ [visit])).filter (·.value.isUnshared) =
        below.visits.filter (·.value.isUnshared) :=
      ihBelow fun found among => alone found (inside_below_subset among)
    rw [firsts, List.filter_append, visits_cons,
      ihBeside fun found among => alone found (inside_beside_subset among)]
    split
    · rename_i again
      obtain ⟨handle, named, -⟩ := repeats_iff.mp again
      have none := alone ⟨visit, below⟩ List.mem_cons_self handle named
      have shared := Visited.isUnshared_eq_false named
      simp [shared, none]
    · rw [List.filter_cons, List.filter_cons, List.filter_append, under]
      split <;> rfl

end Forest

end ShapedGraph

import ShapedGraph.Proofs.Ancestry
import ShapedGraph.Proofs.Faults

/-! What a class inherits when it declares no kind of node. It takes the kind of its first parent,
and so that of the first class on the line of first parents which declares one. The line is the
beginning of the depth-first listing of the class and its ancestors, so a kind that a class declares
further back in the listing is inherited only if it is what a class has without any. Identifiers of
objects are validated under the kind of their class. -/

namespace ShapedGraph

/-! ## Validation of identifiers -/

/-- Validation of an object reports that its identifier is not of the kind that its class asks
for. -/
def Object.ReportsNodeKind (o : Object) (path : Path) : Prop :=
  ∃ fault ∈ (o.validate .collect path (.initial [])).state, ∃ kind,
    fault.value.reason = .nodeKind kind

theorem Object.validate_collect (o : Object) (path : Path) :
    (o.validate .collect path (.initial [])).state = o.faults path := by
  rw [validate_eq]
  exact Verdict.state_reportAll_collect _

theorem Validator.reason?_ne_nodeKind (validator : Validator) (value : Scalar) (kind : NodeKind) :
    validator.reason? value ≠ some (.nodeKind kind) := by
  unfold reason?
  split <;> first
    | split <;> simp
    | simp

/-- What is wrong with a property is never a kind of node. -/
theorem Slot.reason_ne_nodeKind {slot : Slot} {p : Property} {path : Path}
    {fault : Located ValidationError} (among : fault ∈ slot.faults p path) (kind : NodeKind) :
    fault.value.reason ≠ .nodeKind kind := by
  rcases List.mem_append.mp among with of_value | of_number
  · obtain ⟨found, -, among⟩ := List.mem_flatMap.mp of_value
    obtain ⟨validator, -, checked⟩ := List.mem_filterMap.mp among
    obtain ⟨e, failed, rfl⟩ := Option.map_eq_some_iff.mp checked
    obtain ⟨reason, given, rfl⟩ := Option.map_eq_some_iff.mp failed
    rintro rfl
    exact validator.reason?_ne_nodeKind found.value kind given
  · obtain ⟨reason, given, rfl⟩ := Option.map_eq_some_iff.mp (Option.mem_toList.mp of_number)
    rintro rfl
    unfold numberReason? at given
    split at given
    · rcases Option.or_eq_some_iff.mp given with few | ⟨-, many⟩
      · obtain ⟨_, -, same⟩ := Option.map_eq_some_iff.mp few
        cases same
      · obtain ⟨_, -, same⟩ := Option.map_eq_some_iff.mp many
        cases same
    · split at given <;> cases given

theorem Object.reportsNodeKind_iff (o : Object) (path : Path) :
    o.ReportsNodeKind path ↔ o.cls.nodeKind.Breaks o.id := by
  rw [ReportsNodeKind, validate_collect, faults]
  constructor
  · rintro ⟨fault, among, kind, reason⟩
    rcases List.mem_append.mp among with own | of_property
    · split at own
      · assumption
      · cases own
    · obtain ⟨cell, -, among⟩ := List.mem_flatMap.mp of_property
      exact absurd reason (Slot.reason_ne_nodeKind among kind)
  · intro breaks
    rw [if_pos breaks]
    exact ⟨_, List.mem_append_left _ (List.mem_singleton_self _), _, rfl⟩

namespace Registry

mutual

/-- The declarations of a class and of its ancestors, depth first: that of the class, then the
listings of its parents in declared order. A class that is reached several times is listed as
often. -/
inductive Lists (decls : List ClassDecl) : String → List ClassDecl → Prop where
  | cls {decl : ClassDecl} {above : List ClassDecl} (counts : Counts decls decl)
    (parents : ListsParents decls decl.parents above) : Lists decls decl.iri (decl :: above)

/-- The listings of the classes that some keys mean as the names of parents, one after the other. -/
inductive ListsParents (decls : List ClassDecl) : List String → List ClassDecl → Prop where
  | none : ListsParents decls [] []
  | more {key iri : String} {keys : List String} {first others : List ClassDecl}
    (denotes : Denotes decls key iri) (parent : Lists decls iri first)
    (rest : ListsParents decls keys others) : ListsParents decls (key :: keys) (first ++ others)

end

/-- The declarations of a class, of its first parent, of the first parent of that, and so on. -/
inductive FirstLine (decls : List ClassDecl) : String → List ClassDecl → Prop where
  | last {decl : ClassDecl} (counts : Counts decls decl) (orphan : decl.parents = []) :
    FirstLine decls decl.iri [decl]
  | more {decl : ClassDecl} {key iri : String} {others : List String} {above : List ClassDecl}
    (counts : Counts decls decl) (parents : decl.parents = key :: others)
    (denotes : Denotes decls key iri) (first : FirstLine decls iri above) :
    FirstLine decls decl.iri (decl :: above)

variable {decls : List ClassDecl} {decl : ClassDecl} {key iri iri' : String} {keys : List String}
  {classes parents : List NodeClass} {registry : Registry} {c : NodeClass}
  {line listing above : List ClassDecl}

theorem Denotes.unique (denotes : Denotes decls key iri) (denotes' : Denotes decls key iri') :
    iri = iri' := by
  have same := parentIri?_eq_some_iff.mpr denotes
  exact Option.some.inj (same.symm.trans (parentIri?_eq_some_iff.mpr denotes'))

/-! ## Listings -/

theorem Lists.exists_above (lists : Lists decls iri listing) (counts : Counts decls decl)
    (same : decl.iri = iri) :
    ∃ above, listing = decl :: above ∧ ListsParents decls decl.parents above := by
  cases lists with
  | cls counts' parents =>
    obtain rfl := counts.unique counts' same
    exact ⟨_, rfl, parents⟩

theorem exists_listsParents (named : keys.map (parentIri? decls) = parents.map fun p => some p.iri)
    (each : ∀ p ∈ parents, ∃ listing, Lists decls p.iri listing) :
    ∃ above, ListsParents decls keys above := by
  induction keys generalizing parents with
  | nil => exact ⟨[], .none⟩
  | cons key keys ih =>
    cases parents with
    | nil => cases named
    | cons p parents =>
      obtain ⟨first, others⟩ := List.cons.inj named
      obtain ⟨here, later⟩ := List.forall_mem_cons.mp each
      obtain ⟨front, lists⟩ := here
      obtain ⟨back, rest⟩ := ih others later
      exact ⟨front ++ back, .more (parentIri?_eq_some_iff.mp first) lists rest⟩

theorem listsParents_unique
    (named : keys.map (parentIri? decls) = parents.map fun p => some p.iri)
    (each : ∀ p ∈ parents, ∀ listing listing', Lists decls p.iri listing →
      Lists decls p.iri listing' → listing = listing') {above above' : List ClassDecl}
    (lists : ListsParents decls keys above) (lists' : ListsParents decls keys above') :
    above = above' := by
  induction keys generalizing parents above above' with
  | nil =>
    cases lists
    cases lists'
    rfl
  | cons key keys ih =>
    cases parents with
    | nil => cases named
    | cons p parents =>
      obtain ⟨first, others⟩ := List.cons.inj named
      obtain ⟨here, later⟩ := List.forall_mem_cons.mp each
      have denotes := parentIri?_eq_some_iff.mp first
      cases lists with
      | more denotes₁ parent₁ rest₁ =>
        cases lists' with
        | more denotes₂ parent₂ rest₂ =>
          obtain rfl := denotes.unique denotes₁
          obtain rfl := denotes.unique denotes₂
          rw [here _ _ parent₁ parent₂, ih others later rest₁ rest₂]

/-- A class that was settled has a listing, by induction on how it was settled. -/
theorem Resolved.exists_lists (resolved : Resolved decls classes c) :
    ∃ listing, Lists decls c.iri listing := by
  induction resolved with
  | ofParents declared named _ _ _ ih =>
    obtain ⟨above, lists⟩ := exists_listsParents named ih
    exact ⟨_, .cls (declaration?_eq_some_iff.mp declared).2 lists⟩

theorem Resolved.lists_unique (resolved : Resolved decls classes c) :
    ∀ listing listing', Lists decls c.iri listing → Lists decls c.iri listing' →
      listing = listing' := by
  induction resolved with
  | ofParents declared named _ _ _ ih =>
    intro listing listing' lists lists'
    have counts := (declaration?_eq_some_iff.mp declared).2
    obtain ⟨above, rfl, parents⟩ := lists.exists_above counts rfl
    obtain ⟨above', rfl, parents'⟩ := lists'.exists_above counts rfl
    rw [listsParents_unique named ih parents parents']

/-! ## The line of first parents -/

theorem FirstLine.exists_above (leads : FirstLine decls iri line) (counts : Counts decls decl)
    (same : decl.iri = iri) :
    (decl.parents = [] ∧ line = [decl]) ∨
      ∃ key others parent above, decl.parents = key :: others ∧ Denotes decls key parent ∧
        FirstLine decls parent above ∧ line = decl :: above := by
  cases leads with
  | last counts' orphan =>
    obtain rfl := counts.unique counts' same
    exact .inl ⟨orphan, rfl⟩
  | more counts' parents denotes first =>
    obtain rfl := counts.unique counts' same
    exact .inr ⟨_, _, _, _, parents, denotes, first, rfl⟩

theorem Resolved.exists_firstLine (resolved : Resolved decls classes c) :
    ∃ line, FirstLine decls c.iri line := by
  induction resolved with
  | @ofParents decl parents own declared named among each compiled ih =>
    have counts := (declaration?_eq_some_iff.mp declared).2
    cases keys : decl.parents with
    | nil => exact ⟨[decl], .last counts keys⟩
    | cons key others =>
      rw [keys] at named
      cases parents with
      | nil => cases named
      | cons p parents =>
        obtain ⟨first, -⟩ := List.cons.inj named
        obtain ⟨above, leads⟩ := ih p List.mem_cons_self
        exact ⟨decl :: above, .more counts keys (parentIri?_eq_some_iff.mp first) leads⟩

/-- The line of first parents is the beginning of the listing. -/
theorem FirstLine.isPrefix (leads : FirstLine decls iri line) (lists : Lists decls iri listing) :
    line <+: listing := by
  induction leads generalizing listing with
  | last counts orphan =>
    obtain ⟨above, rfl, -⟩ := lists.exists_above counts rfl
    exact ⟨above, rfl⟩
  | more counts keys denotes _ ih =>
    obtain ⟨above, rfl, parents⟩ := lists.exists_above counts rfl
    rw [keys] at parents
    cases parents with
    | more denotes' parent rest =>
      obtain rfl := denotes.unique denotes'
      exact (List.prefix_cons_inj _).mpr ((ih parent).trans (List.prefix_append _ _))

theorem FirstLine.unique (leads : FirstLine decls iri line) :
    ∀ line', FirstLine decls iri line' → line' = line := by
  induction leads with
  | last counts orphan =>
    intro line' leads'
    rcases leads'.exists_above counts rfl with ⟨-, same⟩ | ⟨_, _, _, _, parents, -⟩
    · exact same
    · rw [orphan] at parents
      cases parents
  | more counts keys denotes _ ih =>
    intro line' leads'
    rcases leads'.exists_above counts rfl with
      ⟨orphan, -⟩ | ⟨_, _, _, _, keys', denotes', leads, rfl⟩
    · rw [orphan] at keys
      cases keys
    · cases keys.symm.trans keys'
      obtain rfl := denotes.unique denotes'
      rw [ih _ leads]

/-! ## Kinds of nodes -/

/-- The kind of a class is the first that is declared on the line of first parents. -/
theorem Resolved.nodeKind_eq (resolved : Resolved decls classes c) :
    ∀ line, FirstLine decls c.iri line →
      c.nodeKind = (line.findSome? (·.nodeKind)).getD .either := by
  induction resolved with
  | @ofParents decl parents own declared named among each compiled ih =>
    intro line leads
    have counts := (declaration?_eq_some_iff.mp declared).2
    show decl.nodeKind.getD ((parents.head?.map (·.nodeKind)).getD .either) = _
    rcases leads.exists_above counts rfl with
      ⟨orphan, rfl⟩ | ⟨key, others, parent, above, keys, denotes, leads, rfl⟩
    · rw [orphan] at named
      obtain rfl := List.map_eq_nil_iff.mp named.symm
      cases own : decl.nodeKind <;> simp [own]
    · rw [keys] at named
      cases parents with
      | nil => cases named
      | cons p parents =>
        obtain ⟨first, -⟩ := List.cons.inj named
        obtain rfl := denotes.unique (parentIri?_eq_some_iff.mp first)
        have inherited := ih p List.mem_cons_self above leads
        cases own : decl.nodeKind <;> simp [own, inherited]

/-- A class that declares no kind of node has the one of its first parent: its kind is the first
that is declared on the line of first parents, which is where the listing of its ancestors begins,
and an object of the class is reported for its identifier exactly if that breaks this kind. It is
the first kind declared in the listing exactly if some class on the line declares one, or the first
that is declared in the listing is the one that a class has without any. -/
theorem nodeKind_inherited {contextUrl : String} {order : AliasOrder}
    (made : build contextUrl decls order = .ok registry) :
    ∀ c ∈ registry.classes, ∃ line listing,
      (∀ other, FirstLine decls c.iri other ↔ other = line) ∧
      (∀ other, Lists decls c.iri other ↔ other = listing) ∧
      line <+: listing ∧
      c.nodeKind = (line.findSome? (·.nodeKind)).getD .either ∧
      (∀ (o : Object) (path : Path), o.cls = c →
        (o.ReportsNodeKind path ↔ c.nodeKind.Breaks o.id)) ∧
      (c.nodeKind = (listing.findSome? (·.nodeKind)).getD .either ↔
        (∃ decl ∈ line, decl.nodeKind.isSome) ∨
          (listing.findSome? (·.nodeKind)).getD .either = .either) := by
  intro c hc
  obtain ⟨built, -⟩ := build_spec made
  have resolved := built.resolved c hc
  obtain ⟨line, leads⟩ := resolved.exists_firstLine
  obtain ⟨listing, lists⟩ := resolved.exists_lists
  have begins := leads.isPrefix lists
  have kind := resolved.nodeKind_eq line leads
  refine ⟨line, listing, fun other => ⟨leads.unique other, fun same => same ▸ leads⟩,
    fun other => ⟨fun lists' => resolved.lists_unique _ _ lists' lists, fun same => same ▸ lists⟩,
    begins, kind, fun o path same => ?_, ?_⟩
  · rw [o.reportsNodeKind_iff, same]
  cases found : line.findSome? (·.nodeKind) with
  | some first =>
    obtain ⟨decl, among, declared⟩ := List.exists_of_findSome?_eq_some found
    rw [kind, found, begins.findSome?_eq_some found]
    simp only [true_iff]
    exact .inl ⟨decl, among, by simp [declared]⟩
  | none =>
    have undeclared := List.findSome?_eq_none_iff.mp found
    rw [kind, found, Option.getD_none, eq_comm]
    refine ⟨.inr, fun holds => holds.resolve_left ?_⟩
    rintro ⟨decl, among, declared⟩
    rw [undeclared decl among] at declared
    cases declared

end Registry

namespace Sample

/-- A sight may be any node. -/
def sight : ClassDecl where
  iri := "ex:Sight"
  compact := none
  nodeKind := none
  idAlias := none
  isAbstract := false
  extensible := none
  parents := []
  properties := []

/-- An address is an IRI. -/
def address : ClassDecl := { sight with iri := "ex:Address", nodeKind := some .iri }

def landmark : ClassDecl :=
  { sight with iri := "ex:Landmark", parents := ["ex:Sight", "ex:Address"] }

def museum : ClassDecl :=
  { sight with iri := "ex:Museum", parents := ["ex:Address", "ex:Sight"] }

def town : List ClassDecl := [sight, address, landmark, museum]

def townRegistry : Registry := (Registry.build "" town).toOption.getD ⟨"", [], []⟩

end Sample

theorem Sample.museum_isIri : ∃ museum listing,
    Registry.build "" Sample.town = .ok Sample.townRegistry ∧
      museum ∈ Sample.townRegistry.classes ∧ museum.iri = "ex:Museum" ∧
        Registry.Lists Sample.town museum.iri listing ∧
          (listing.findSome? (·.nodeKind)).getD .either = .iri ∧ museum.nodeKind = .iri ∧
            Object.ReportsNodeKind { Object.blank museum with id := some "_:m" } .root := by
  obtain ⟨museum, made, hc, named, kind⟩ : ∃ museum,
      Registry.build "" Sample.town = .ok Sample.townRegistry ∧
        museum ∈ Sample.townRegistry.classes ∧ museum.iri = "ex:Museum" ∧ museum.nodeKind = .iri :=
    ⟨_, rfl, .tail _ (.tail _ (.tail _ (.head _))), rfl, rfl⟩
  obtain ⟨line, listing, -, lists, -, first, reports, agrees⟩ :=
    Registry.nodeKind_inherited made museum hc
  refine ⟨museum, listing, made, hc, named, (lists listing).mpr rfl, ?_, kind, ?_⟩
  · -- The kind is declared on the line, as it is not the one of a class without any.
    cases found : line.findSome? (·.nodeKind) with
    | none =>
      rw [kind, found] at first
      cases first
    | some declared =>
      obtain ⟨decl, among, own⟩ := List.exists_of_findSome?_eq_some found
      rw [← agrees.mpr (.inl ⟨decl, among, by simp [own]⟩), kind]
  · refine (reports _ _ rfl).mpr ?_
    rw [kind]
    exact .inl ⟨"_:m", rfl, by decide⟩

/-- A landmark is an address, but a blank node is accepted for one. -/
theorem Sample.landmark_isEither : ∃ landmark,
    Registry.build "" Sample.town = .ok Sample.townRegistry ∧
      Sample.townRegistry.get? "ex:Landmark" = some landmark ∧
        Registry.Lists Sample.town "ex:Landmark" [Sample.landmark, Sample.sight, Sample.address] ∧
          [Sample.landmark, Sample.sight, Sample.address].findSome? (·.nodeKind) = some .iri ∧
            landmark.nodeKind ≠ .iri ∧
              (Object.validate Handler.collect { Object.blank landmark with id := some "_:l" } .root
                (.initial [])).valid = true := by
  have sight : Registry.Lists Sample.town "ex:Sight" [Sample.sight] :=
    .cls ⟨[], [Sample.address, Sample.landmark, Sample.museum], rfl, by decide⟩ .none
  have address : Registry.Lists Sample.town "ex:Address" [Sample.address] :=
    .cls ⟨[Sample.sight], [Sample.landmark, Sample.museum], rfl, by decide⟩ .none
  refine ⟨_, rfl, rfl, ?_, rfl, by decide, by decide⟩
  refine .cls ⟨[Sample.sight, Sample.address], [Sample.museum], rfl, by decide⟩ ?_
  have second : Registry.ListsParents Sample.town ["ex:Address"] [Sample.address] :=
    .more (.iri ⟨Sample.address, by simp [Sample.town], rfl⟩) address .none
  exact .more (.iri ⟨Sample.sight, by simp [Sample.town], rfl⟩) sight second

end ShapedGraph

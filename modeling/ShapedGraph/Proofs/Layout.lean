import ShapedGraph.Proofs.Ancestry

/-! Layouts. The layout of a class has every declaration of the class and of its ancestors in one
place, however many ways lead to it, and nothing else. What an ancestor declares stands in front of
what is declared by the classes that derive from it: whatever is taken over from a parent comes with
everything that must stand in front of it, or that is there already. -/

namespace ShapedGraph

open Relation (ReflTransGen TransGen)

namespace Property

variable {owner : String} {position place : Nat} {p q : Property}

theorem same_comm (p q : Property) : same p q = same q p := by
  simp only [same, eq_comm]

theorem same_self (p : Property) : p.same p = true := by
  simp [same]

/-- No two of the properties come from one declaration. -/
def Distinct (properties : List Property) : Prop :=
  properties.Pairwise fun p q => same p q = false

theorem Distinct.nodup {properties : List Property} (distinct : Distinct properties) :
    properties.Nodup := by
  refine distinct.imp fun {p q} differ same => ?_
  rw [same, same_self] at differ
  cases differ

theorem distinct_merge {found more : List Property} (distinct : Distinct found)
    (distinct' : Distinct more) : Distinct (merge found more) := by
  refine List.pairwise_append.mpr ⟨distinct, distinct'.filter _, fun p hp q hq => ?_⟩
  have new := (List.mem_filter.mp hq).2
  simp only [Bool.not_eq_true', List.any_eq_false, Bool.not_eq_true] at new
  rw [same_comm]
  exact new p hp

theorem distinct_compileAll {owner : String} {position : Nat} {decls : List PropertyDecl}
    {own : List Property} (h : compileAll owner position decls = .ok own) :
    Distinct own ∧ ∀ p ∈ own, position ≤ p.position := by
  induction decls generalizing position own with
  | nil =>
    cases h
    exact ⟨.nil, fun _ there => absurd there List.not_mem_nil⟩
  | cons decl decls ih =>
    rw [compileAll] at h
    obtain ⟨p, first, h⟩ := Outcome.bind_eq_ok.mp h
    obtain ⟨rest, later, h⟩ := Outcome.bind_eq_ok.mp h
    cases h
    obtain ⟨chain, -, first⟩ := Outcome.bind_eq_ok.mp first
    cases first
    obtain ⟨distinct, behind⟩ := ih later
    refine ⟨List.pairwise_cons.mpr ⟨fun q hq => ?_, distinct⟩, List.forall_mem_cons.mpr ⟨?_, ?_⟩⟩
    · have := behind q hq
      simp only [same, decide_eq_false_iff_not, not_and]
      omega
    · exact Nat.le_refl position
    · intro q hq
      have := behind q hq
      omega

theorem of_compile {decl : PropertyDecl} (h : compile owner position decl = .ok p) :
    p.owner = owner ∧ p.position = position := by
  obtain ⟨chain, -, made⟩ := Outcome.bind_eq_ok.mp h
  cases made
  exact ⟨rfl, rfl⟩

/-- Each declaration of a class is compiled with its own position. -/
theorem getElem?_of_compileAll {decls : List PropertyDecl} {own : List Property}
    (h : compileAll owner position decls = .ok own) (place : Nat) :
    own[place]? = some p ↔
      ∃ decl, decls[place]? = some decl ∧ compile owner (position + place) decl = .ok p := by
  induction decls generalizing position own place with
  | nil =>
    cases h
    simp
  | cons decl decls ih =>
    rw [compileAll] at h
    obtain ⟨first, compiled, h⟩ := Outcome.bind_eq_ok.mp h
    obtain ⟨rest, later, h⟩ := Outcome.bind_eq_ok.mp h
    cases h
    cases place with
    | zero => simp [compiled]
    | succ place =>
      simp only [List.getElem?_cons_succ, ih later, Nat.add_right_comm position 1, Nat.add_assoc]

end Property

/-- What the declaration of a class says of a property at a position. -/
def ClassDecl.States (decl : ClassDecl) (position : Nat) (p : Property) : Prop :=
  ∃ said, decl.properties[position]? = some said ∧
    Property.compile decl.iri position said = .ok p

theorem ClassDecl.States.origin {decl : ClassDecl} {position : Nat} {p : Property}
    (states : decl.States position p) : p.owner = decl.iri ∧ p.position = position := by
  obtain ⟨_, -, compiled⟩ := states
  exact Property.of_compile compiled

theorem ClassDecl.States.unique {decl : ClassDecl} {position : Nat} {p q : Property}
    (states : decl.States position p) (states' : decl.States position q) : p = q := by
  obtain ⟨said, there, compiled⟩ := states
  obtain ⟨said', there', compiled'⟩ := states'
  cases there.symm.trans there'
  exact Except.ok.inj (compiled.symm.trans compiled')

namespace Registry

variable {decls : List ClassDecl} {decl : ClassDecl} {classes parents : List NodeClass}
  {registry : Registry} {c : NodeClass} {p q : Property} {found more own : List Property}

/-- Some declaration that counts says this of the property. -/
def Declared (decls : List ClassDecl) (p : Property) : Prop :=
  ∃ decl position, Counts decls decl ∧ decl.States position p

/-- The properties come from different declarations or are the same. -/
theorem Declared.eq_of_same (declared : Declared decls p) (declared' : Declared decls q)
    (same : p.same q = true) : p = q := by
  obtain ⟨decl, position, counts, states⟩ := declared
  obtain ⟨decl', position', counts', states'⟩ := declared'
  simp only [Property.same, decide_eq_true_eq] at same
  obtain ⟨owner, rfl⟩ := states.origin
  obtain ⟨owner', rfl⟩ := states'.origin
  obtain rfl := counts.unique counts' (owner.symm.trans (same.1.trans owner'))
  exact states.unique (same.2 ▸ states')

/-! ## What is in a layout -/

theorem mem_merge_iff (declared : ∀ p ∈ found, Declared decls p)
    (declared' : ∀ p ∈ more, Declared decls p) :
    p ∈ Property.merge found more ↔ p ∈ found ∨ p ∈ more := by
  refine ⟨mem_merge, fun among => List.mem_append.mpr ?_⟩
  by_cases known : p ∈ found
  · exact .inl known
  · have there := among.resolve_left known
    refine .inr (List.mem_filter.mpr ⟨there, ?_⟩)
    simp only [Bool.not_eq_true', List.any_eq_false]
    intro q hq same
    exact known ((declared' p there).eq_of_same (declared q hq) same ▸ hq)

theorem declared_of_mem_inherited
    (declared : ∀ parent ∈ parents, ∀ p ∈ parent.layout, Declared decls p) :
    ∀ p ∈ inherited parents, Declared decls p := by
  intro p hp
  obtain ⟨parent, hparent, hp⟩ := exists_of_mem_inherited hp
  exact declared parent hparent p hp

theorem mem_inherited_iff (declared : ∀ parent ∈ parents, ∀ p ∈ parent.layout, Declared decls p) :
    p ∈ inherited parents ↔ ∃ parent ∈ parents, p ∈ parent.layout := by
  refine ⟨exists_of_mem_inherited, ?_⟩
  induction parents using List.reverseRecOn with
  | nil => exact fun ⟨_, among, _⟩ => absurd among List.not_mem_nil
  | append_singleton parents parent ih =>
    obtain ⟨earlier, last⟩ := List.forall_mem_append.mp declared
    rw [inherited_concat, mem_merge_iff (declared_of_mem_inherited earlier)
      (last parent List.mem_cons_self)]
    rintro ⟨other, among, hp⟩
    rcases List.mem_append.mp among with among | same
    · exact .inl (ih earlier ⟨other, among, hp⟩)
    · exact .inr (List.mem_singleton.mp same ▸ hp)

/-- A class is resolved with what its declaration states of its own properties. -/
theorem mem_own_iff (counts : Counts decls decl)
    (compiled : Property.compileAll decl.iri 0 decl.properties = .ok own) :
    p ∈ own ↔ Declared decls p ∧ p.owner = decl.iri := by
  have there : ∀ place, own[place]? = some p ↔ decl.States place p := by
    intro place
    rw [Property.getElem?_of_compileAll compiled place, Nat.zero_add]
    rfl
  constructor
  · intro hp
    obtain ⟨place, hp⟩ := List.mem_iff_getElem?.mp hp
    have states := (there place).mp hp
    exact ⟨⟨decl, place, counts, states⟩, states.origin.1⟩
  · rintro ⟨⟨decl', position, counts', states⟩, owner⟩
    obtain rfl := counts'.unique counts (states.origin.1.symm.trans owner)
    exact List.mem_of_getElem? ((there position).mpr states)

/-- The layout of a class has what the class and its ancestors declare. -/
theorem Resolved.mem_layout_iff (resolved : Resolved decls classes c) :
    p ∈ c.layout ↔ Declared decls p ∧ ReflTransGen (ParentOf decls) p.owner c.iri := by
  induction resolved generalizing p with
  | @ofParents decl parents own declared named _ _ compiled ih =>
    have counts := (declaration?_eq_some_iff.mp declared).2
    have owned : ∀ p, p ∈ own ↔ Declared decls p ∧ p.owner = decl.iri :=
      fun _ => mem_own_iff counts compiled
    have stated : ∀ parent ∈ parents, ∀ p ∈ parent.layout, Declared decls p :=
      fun parent hparent p hp => ((ih parent hparent).mp hp).1
    have leads : ReflTransGen (ParentOf decls) p.owner decl.iri ↔ p.owner = decl.iri ∨
        ∃ parent ∈ parents, ReflTransGen (ParentOf decls) p.owner parent.iri :=
      reflTransGen_iff_of_named counts named
    rw [layout_ofParents, mem_merge_iff (declared_of_mem_inherited stated)
      fun p hp => ((owned p).mp hp).1, mem_inherited_iff stated, owned]
    constructor
    · rintro (⟨parent, hparent, hp⟩ | ⟨states, owner⟩)
      · obtain ⟨states, above⟩ := (ih parent hparent).mp hp
        exact ⟨states, leads.mpr (.inr ⟨parent, hparent, above⟩)⟩
      · exact ⟨states, leads.mpr (.inl owner)⟩
    · rintro ⟨states, above⟩
      rcases leads.mp above with owner | ⟨parent, hparent, above⟩
      · exact .inr ⟨states, owner⟩
      · exact .inl ⟨parent, hparent, (ih parent hparent).mpr ⟨states, above⟩⟩

/-! ## The order of a layout -/

theorem distinct_inherited (distinct : ∀ parent ∈ parents, Property.Distinct parent.layout) :
    Property.Distinct (inherited parents) := by
  induction parents using List.reverseRecOn with
  | nil => exact .nil
  | append_singleton parents parent ih =>
    obtain ⟨earlier, last⟩ := List.forall_mem_append.mp distinct
    rw [inherited_concat]
    exact Property.distinct_merge (ih earlier) (last parent List.mem_cons_self)

/-- A class that inherits a property in several ways has it once. -/
theorem Resolved.distinct_layout {decls : List ClassDecl} {classes : List NodeClass}
    {c : NodeClass} (h : Resolved decls classes c) : Property.Distinct c.layout := by
  induction h with
  | ofParents _ _ _ _ compiled ih =>
    exact Property.distinct_merge (distinct_inherited ih) (Property.distinct_compileAll compiled).1

/-- Nothing stands behind what is declared by a class that derives from its own. -/
def BaseFirst (decls : List ClassDecl) (properties : List Property) : Prop :=
  properties.Pairwise fun p q => ¬TransGen (ParentOf decls) q.owner p.owner

theorem baseFirst_merge (first : BaseFirst decls found) (first' : BaseFirst decls more)
    (closed : ∀ p ∈ found, ∀ q ∈ more, TransGen (ParentOf decls) q.owner p.owner → q ∈ found) :
    BaseFirst decls (Property.merge found more) := by
  refine List.pairwise_append.mpr ⟨first, first'.filter _, fun p hp q hq above => ?_⟩
  obtain ⟨hq, new⟩ := List.mem_filter.mp hq
  have known : found.any (Property.same q) = true :=
    List.any_eq_true.mpr ⟨q, closed p hp q hq above, q.same_self⟩
  rw [known] at new
  cases new

/-- What is taken over comes with all that its declaring class derives from. -/
theorem inherited_closed (each : ∀ parent ∈ parents, Resolved decls classes parent)
    (hp : p ∈ inherited parents) (declared : Declared decls q)
    (above : TransGen (ParentOf decls) q.owner p.owner) : q ∈ inherited parents := by
  obtain ⟨parent, hparent, hp⟩ := exists_of_mem_inherited hp
  obtain ⟨-, leads⟩ := (each parent hparent).mem_layout_iff.mp hp
  have there : q ∈ parent.layout :=
    (each parent hparent).mem_layout_iff.mpr ⟨declared, above.to_reflTransGen.trans leads⟩
  exact (mem_inherited_iff fun parent hparent _ hp =>
    ((each parent hparent).mem_layout_iff.mp hp).1).mpr ⟨parent, hparent, there⟩

/-- The parents are taken one after the other, each on top of what those before it gave. -/
theorem baseFirst_inherited (each : ∀ parent ∈ parents, Resolved decls classes parent)
    (first : ∀ parent ∈ parents, BaseFirst decls parent.layout) :
    BaseFirst decls (inherited parents) := by
  induction parents using List.reverseRecOn with
  | nil => exact .nil
  | append_singleton parents parent ih =>
    obtain ⟨earlier, last⟩ := List.forall_mem_append.mp each
    obtain ⟨firstEarlier, firstLast⟩ := List.forall_mem_append.mp first
    have here := last parent List.mem_cons_self
    rw [inherited_concat]
    refine baseFirst_merge (ih earlier firstEarlier) (firstLast parent List.mem_cons_self) ?_
    exact fun p hp q hq above => inherited_closed earlier hp (here.mem_layout_iff.mp hq).1 above

theorem Resolved.baseFirst_layout (acyclic : ∀ iri, ¬TransGen (ParentOf decls) iri iri)
    (resolved : Resolved decls classes c) : BaseFirst decls c.layout := by
  induction resolved with
  | @ofParents decl parents own declared _ _ each compiled ih =>
    have counts := (declaration?_eq_some_iff.mp declared).2
    have owned : ∀ p ∈ own, Declared decls p ∧ p.owner = decl.iri :=
      fun _ => (mem_own_iff counts compiled).mp
    have own_first : BaseFirst decls own := by
      refine List.pairwise_of_forall_mem_list fun p hp q hq above => acyclic decl.iri ?_
      rwa [(owned p hp).2, (owned q hq).2] at above
    refine baseFirst_merge (baseFirst_inherited each ih) own_first ?_
    exact fun p hp q hq above => inherited_closed each hp (owned q hq).1 above

/-- A property that must stand in front of another one does. -/
theorem BaseFirst.lt {properties : List Property} (first : BaseFirst decls properties)
    (acyclic : ∀ iri, ¬TransGen (ParentOf decls) iri iri) {place later : Nat}
    (hp : properties[place]? = some p) (hq : properties[later]? = some q)
    (above : TransGen (ParentOf decls) p.owner q.owner) : place < later := by
  obtain ⟨inside, rfl⟩ := List.getElem?_eq_some_iff.mp hp
  obtain ⟨inside', rfl⟩ := List.getElem?_eq_some_iff.mp hq
  rcases Nat.lt_trichotomy place later with before | rfl | behind
  · exact before
  · exact absurd above (acyclic _)
  · exact absurd above (List.pairwise_iff_getElem.mp first later place inside' inside behind)

/-! ## Layouts of a registry -/

namespace Built

variable (built : registry.Built decls)

include built

/-- Each position of a declaration that counts makes a property. -/
theorem exists_states (counts : Counts decls decl) {position : Nat}
    (inside : position < decl.properties.length) : ∃ p, decl.States position p := by
  obtain ⟨parents, own, -, -, compiled⟩ := built.exists_ofParents counts
  have there : (own.map (·.toPropertyDecl))[position]? = some decl.properties[position] := by
    rw [Property.map_of_compileAll compiled, List.getElem?_eq_getElem inside]
  rw [List.getElem?_map] at there
  obtain ⟨p, hp, -⟩ := Option.map_eq_some_iff.mp there
  have states := (Property.getElem?_of_compileAll compiled position).mp hp
  rw [Nat.zero_add] at states
  exact ⟨p, states⟩

theorem existsUnique_place (hc : c ∈ registry.classes) (counts : Counts decls decl)
    (leads : ReflTransGen (ParentOf decls) decl.iri c.iri) {position : Nat}
    (inside : position < decl.properties.length) :
    ∃! place : Nat, ∃ p, c.layout[place]? = some p ∧ decl.States position p := by
  have resolved := built.resolved c hc
  obtain ⟨p, states⟩ := built.exists_states counts inside
  have declared : Declared decls p := ⟨decl, position, counts, states⟩
  have there : p ∈ c.layout :=
    resolved.mem_layout_iff.mpr ⟨declared, states.origin.1.symm ▸ leads⟩
  obtain ⟨place, hp⟩ := List.mem_iff_getElem?.mp there
  refine ⟨place, ⟨p, hp, states⟩, ?_⟩
  rintro other ⟨q, hq, states'⟩
  obtain rfl := states.unique states'
  have within := (List.getElem?_eq_some_iff.mp hq).1
  exact (List.getElem?_inj within resolved.distinct_layout.nodup).mp (hq.trans hp.symm)

end Built

/-- The layout of a class has each declaration of the class and of its ancestors in exactly one
place, and nothing else. All that a class declares stands in front of what is declared by the
classes that derive from it. -/
theorem layout_complete_baseFirst {contextUrl : String} {order : AliasOrder}
    (made : build contextUrl decls order = .ok registry) (hc : c ∈ registry.classes) :
    (∀ decl, Counts decls decl → ReflTransGen (ParentOf decls) decl.iri c.iri →
      ∀ position < decl.properties.length,
        ∃! place : Nat, ∃ p, c.layout[place]? = some p ∧ decl.States position p) ∧
    (∀ p ∈ c.layout, ∃ decl position, Counts decls decl ∧
      ReflTransGen (ParentOf decls) decl.iri c.iri ∧ decl.States position p) ∧
    ∀ base sub : ClassDecl, TransGen (ParentOf decls) base.iri sub.iri →
      ∀ position position' p q, base.States position p → sub.States position' q →
        ∀ place later : Nat, c.layout[place]? = some p → c.layout[later]? = some q →
          place < later := by
  obtain ⟨built, -⟩ := build_spec made
  have resolved := built.resolved c hc
  refine ⟨?_, fun p hp => ?_, ?_⟩
  · exact fun decl counts leads position inside => built.existsUnique_place hc counts leads inside
  · obtain ⟨⟨decl, position, counts, states⟩, leads⟩ := resolved.mem_layout_iff.mp hp
    exact ⟨decl, position, counts, states.origin.1 ▸ leads, states⟩
  · intro base sub above position position' p q states states' place later hp hq
    rw [← states.origin.1, ← states'.origin.1] at above
    exact (resolved.baseFirst_layout built.acyclic).lt built.acyclic hp hq above

end Registry

/-- An apple tree has what plants declare once, in front of all that crops and trees declare. -/
theorem Sample.appleTree_layout : ∃ tree,
    Sample.orchardRegistry.get? "AppleTree" = some tree ∧
      (∃! place : Nat, ∃ p, tree.layout[place]? = some p ∧ Sample.plant.States 0 p) ∧
        ∀ (place later : Nat) p q, Sample.plant.States 0 p → Sample.crop.States 1 q →
          tree.layout[place]? = some p → tree.layout[later]? = some q → place < later := by
  have made : Registry.build "" Sample.orchard = .ok Sample.orchardRegistry := rfl
  obtain ⟨tree, found, hc, below⟩ : ∃ tree,
      Sample.orchardRegistry.get? "AppleTree" = some tree ∧
        tree ∈ Sample.orchardRegistry.classes ∧ tree.isSubclassOf "ex:Plant" = true :=
    ⟨_, rfl, .head _, rfl⟩
  have counts : Registry.Counts Sample.orchard Sample.plant :=
    ⟨[Sample.appleTree, Sample.tree, Sample.crop], [], rfl, nofun⟩
  have counts' : Registry.Counts Sample.orchard Sample.crop :=
    ⟨[Sample.appleTree, Sample.tree], [Sample.plant], rfl, by decide⟩
  have leads := ((Registry.build_spec made).1.isSubclassOf_iff hc).mp below
  have above : Registry.ParentOf Sample.orchard Sample.plant.iri Sample.crop.iri :=
    ⟨Sample.crop, counts', rfl, "ex:Plant", .head _, .iri ⟨Sample.plant, by decide, rfl⟩⟩
  obtain ⟨once, -, ordered⟩ := Registry.layout_complete_baseFirst made hc
  refine ⟨tree, found, once Sample.plant counts leads 0 Nat.zero_lt_one, ?_⟩
  exact fun place later p q states states' =>
    ordered Sample.plant Sample.crop (.single above) 0 1 p q states states' place later

example : (Sample.orchardRegistry.get? "AppleTree").map (fun c => c.layout.map (·.name)) =
    some ["height", "sown", "grower", "rings", "sort"] := rfl

end ShapedGraph

import ShapedGraph.Proofs.Declarations

/-! Ancestors. A class is settled with the list of those that it derives from, and that list holds
exactly the classes that the declared parents lead to. As nothing is its own ancestor, deriving is
a partial order of the classes of a registry. -/

namespace ShapedGraph

open Relation (ReflTransGen TransGen)

theorem NodeClass.mem_lineage_ofParents {decl : ClassDecl} {parents : List NodeClass}
    {own : List Property} {iri : String} :
    iri ∈ (ofParents decl parents own).lineage ↔
      iri = decl.iri ∨ ∃ parent ∈ parents, iri ∈ parent.lineage := by
  have inherited : ∀ (parents : List NodeClass) (found : List String),
      iri ∈ parents.foldl (fun found parent =>
          found ++ parent.lineage.filter fun iri => !found.contains iri) found ↔
        iri ∈ found ∨ ∃ parent ∈ parents, iri ∈ parent.lineage := by
    intro parents
    induction parents with
    | nil => simp
    | cons parent parents ih =>
      intro found
      rw [List.foldl_cons, ih, List.exists_mem_cons_iff, ← or_assoc]
      refine or_congr_left ?_
      by_cases known : iri ∈ found <;> simp [known]
  rw [ofParents, List.mem_cons, inherited parents []]
  simp

namespace Registry

variable {decls : List ClassDecl} {decl other : ClassDecl} {key iri : String}
  {classes : List NodeClass} {registry : Registry} {c a b : NodeClass}

/-! ## Parents -/

theorem Counts.unique (counts : Counts decls decl) (counts' : Counts decls other)
    (same : decl.iri = other.iri) : decl = other := by
  have declared := declaration?_eq_some_iff.mpr ⟨same, counts⟩
  exact Option.some.inj (declared.symm.trans (declaration?_eq_some_iff.mpr ⟨rfl, counts'⟩))

/-- What a declaration that counts means by its parents are the classes that these are settled to.
-/
theorem parentOf_iff_of_named {parents : List NodeClass} (counts : Counts decls decl)
    (named : decl.parents.map (parentIri? decls) = parents.map fun p => some p.iri) :
    ParentOf decls iri decl.iri ↔ ∃ p ∈ parents, p.iri = iri :=
  calc ParentOf decls iri decl.iri
      ↔ some iri ∈ decl.parents.map (parentIri? decls) := by
        rw [List.mem_map]
        simp only [parentIri?_eq_some_iff]
        constructor
        · rintro ⟨decl', counts', same, names⟩
          exact counts'.unique counts same ▸ names
        · exact fun names => ⟨decl, counts, rfl, names⟩
    _ ↔ some iri ∈ parents.map (fun p => some p.iri) := by rw [named]
    _ ↔ ∃ p ∈ parents, p.iri = iri := by simp

/-- The parents that a class was settled with are those that its declaration names. -/
theorem Resolved.parentOf_iff (resolved : Resolved decls classes c) :
    ParentOf decls iri c.iri ↔ iri ∈ c.parents := by
  cases resolved with
  | ofParents declared named =>
    have counts := (declaration?_eq_some_iff.mp declared).2
    exact (parentOf_iff_of_named counts named).trans List.mem_map.symm

/-- The ancestors of a class are itself and the ancestors of its parents. -/
theorem reflTransGen_iff_of_named {parents : List NodeClass} (counts : Counts decls decl)
    (named : decl.parents.map (parentIri? decls) = parents.map fun p => some p.iri) :
    ReflTransGen (ParentOf decls) iri decl.iri ↔
      iri = decl.iri ∨ ∃ p ∈ parents, ReflTransGen (ParentOf decls) iri p.iri := by
  rw [ReflTransGen.cases_tail_iff, eq_comm]
  refine or_congr_right ⟨?_, ?_⟩
  · rintro ⟨_, leads, last⟩
    obtain ⟨p, hp, rfl⟩ := (parentOf_iff_of_named counts named).mp last
    exact ⟨p, hp, leads⟩
  · rintro ⟨p, hp, leads⟩
    exact ⟨p.iri, leads, (parentOf_iff_of_named counts named).mpr ⟨p, hp, rfl⟩⟩

theorem Resolved.mem_lineage_iff (resolved : Resolved decls classes c) :
    iri ∈ c.lineage ↔ ReflTransGen (ParentOf decls) iri c.iri := by
  induction resolved with
  | ofParents declared named _ _ _ ih =>
    have counts := (declaration?_eq_some_iff.mp declared).2
    refine NodeClass.mem_lineage_ofParents.trans
      (Iff.trans ?_ (reflTransGen_iff_of_named counts named).symm)
    exact or_congr_right (exists_congr fun p => and_congr_right fun hp => ih p hp)

/-! ## Deriving -/

/-- Both classes are registered, and the child was settled with the parent among its parents. -/
structure IsParent (registry : Registry) (p c : NodeClass) : Prop where
  parent : p ∈ registry.classes
  child : c ∈ registry.classes
  named : p.iri ∈ c.parents

namespace Built

variable (built : registry.Built decls)

include built

/-- A class derives from those that the declared parents lead to. -/
theorem isSubclassOf_iff (hc : c ∈ registry.classes) :
    c.isSubclassOf iri = true ↔ ReflTransGen (ParentOf decls) iri c.iri :=
  List.contains_iff_mem.trans (built.resolved c hc).mem_lineage_iff

theorem exists_class (declared : iri ∈ irisOf decls) : ∃ c ∈ registry.classes, c.iri = iri :=
  List.mem_map.mp (built.iris ▸ declared)

theorem known (hc : c ∈ registry.classes) : Known decls c.iri := by
  obtain ⟨decl, among, same⟩ := mem_irisOf_iff.mp (built.iris ▸ List.mem_map_of_mem hc)
  exact ⟨decl, among, .inl same⟩

/-- What the declarations lead from, the classes that were settled lead from too. -/
theorem reflTransGen_iff (hc : c ∈ registry.classes) :
    ReflTransGen (ParentOf decls) iri c.iri ↔
      ∃ a ∈ registry.classes, a.iri = iri ∧ ReflTransGen registry.IsParent a c := by
  constructor
  · intro leads
    induction leads using ReflTransGen.head_induction_on with
    | refl => exact ⟨c, hc, rfl, .refl⟩
    | head first _ ih =>
      obtain ⟨b, hb, rfl, leads⟩ := ih
      obtain ⟨decl, -, -, key, -, denotes⟩ := id first
      obtain ⟨a, ha, rfl⟩ := built.exists_class denotes.mem_irisOf
      have named := (built.resolved b hb).parentOf_iff.mp first
      exact ⟨a, ha, rfl, .head ⟨ha, hb, named⟩ leads⟩
  · rintro ⟨a, -, rfl, leads⟩
    refine leads.lift NodeClass.iri fun parent child step => ?_
    exact (built.resolved child step.child).parentOf_iff.mpr step.named

/-- A class is not both above and below another one. -/
theorem iri_eq_of_reflTransGen {above below : String}
    (down : ReflTransGen (ParentOf decls) above below)
    (up : ReflTransGen (ParentOf decls) below above) : above = below := by
  rcases Relation.reflTransGen_iff_eq_or_transGen.mp down with same | strictly
  · exact same.symm
  · exact absurd (strictly.trans_left up) (built.acyclic above)

end Built

/-- A class derives from another exactly if the parents that it was settled with lead there, which
are the declared ones. That is a partial order of the classes of the registry. -/
theorem isSubclassOf_partialOrder {contextUrl : String} {order : AliasOrder}
    (made : build contextUrl decls order = .ok registry) :
    (∀ c ∈ registry.classes, ∀ iri,
      (c.isSubclassOf iri = true ↔
        ∃ a ∈ registry.classes, a.iri = iri ∧ ReflTransGen registry.IsParent a c) ∧
      (c.isSubclassOf iri = true ↔ ReflTransGen (ParentOf decls) iri c.iri)) ∧
    (∀ c ∈ registry.classes, c.isSubclassOf c.iri = true) ∧
    (∀ c ∈ registry.classes, ∀ b ∈ registry.classes, ∀ a ∈ registry.classes,
      c.isSubclassOf b.iri = true → b.isSubclassOf a.iri = true → c.isSubclassOf a.iri = true) ∧
    ∀ c ∈ registry.classes, ∀ b ∈ registry.classes,
      c.isSubclassOf b.iri = true → b.isSubclassOf c.iri = true → c = b := by
  obtain ⟨built, -⟩ := build_spec made
  refine ⟨fun c hc iri => ?_, fun c hc => built.isSubclassOf_self hc, ?_, ?_⟩
  · have derives : c.isSubclassOf iri = true ↔ ReflTransGen (ParentOf decls) iri c.iri :=
      built.isSubclassOf_iff hc
    exact ⟨derives.trans (built.reflTransGen_iff hc), derives⟩
  · intro c hc b hb a _ below above
    rw [built.isSubclassOf_iff hc] at below ⊢
    exact ((built.isSubclassOf_iff hb).mp above).trans below
  · intro c hc b hb below above
    rw [built.isSubclassOf_iff hc] at below
    rw [built.isSubclassOf_iff hb] at above
    exact built.unique c hc b hb (built.iri_eq_of_reflTransGen above below)

end Registry

namespace Sample

def plant : ClassDecl where
  iri := "ex:Plant"
  compact := some "Plant"
  nodeKind := none
  idAlias := none
  isAbstract := true
  extensible := none
  parents := []
  properties := [⟨"height", "ex:height", some "height", .scalar .float, false, none, none, [], []⟩]

def tree : ClassDecl :=
  { plant with
    iri := "ex:Tree", compact := some "Tree", parents := ["Plant"]
    properties := [
      ⟨"rings", "ex:rings", some "rings", .scalar .integer, false, none, none, [], []⟩] }

def crop : ClassDecl :=
  { plant with
    iri := "ex:Crop", compact := none, parents := ["ex:Plant", "Plant"]
    properties := [
      ⟨"sown", "ex:sown", some "sown", .scalar .dateTime, false, none, none, [], []⟩,
      ⟨"grower", "ex:grower", none, .scalar .iri, true, none, none, [], []⟩] }

/-- An apple tree is a plant in two ways. -/
def appleTree : ClassDecl :=
  { plant with
    iri := "ex:AppleTree", compact := some "AppleTree", parents := ["ex:Crop", "Tree"]
    properties := [⟨"sort", "ex:sort", some "sort", .scalar .string, false, none, none, [], []⟩] }

def orchard : List ClassDecl := [appleTree, tree, crop, plant]

def orchardRegistry : Registry := (Registry.build "" orchard).toOption.getD ⟨"", [], []⟩

end Sample

theorem Sample.appleTree_derives : ∃ tree plant,
    Registry.build "" Sample.orchard = .ok Sample.orchardRegistry ∧
      Sample.orchardRegistry.get? "AppleTree" = some tree ∧ plant ∈ Sample.orchardRegistry.classes ∧
        plant.iri = "ex:Plant" ∧ ReflTransGen Sample.orchardRegistry.IsParent plant tree ∧
          plant.isSubclassOf tree.iri = false := by
  obtain ⟨tree, made, found, hc, below, apart⟩ : ∃ tree,
      Registry.build "" Sample.orchard = .ok Sample.orchardRegistry ∧
        Sample.orchardRegistry.get? "AppleTree" = some tree ∧
          tree ∈ Sample.orchardRegistry.classes ∧ tree.isSubclassOf "ex:Plant" = true ∧
            tree.iri ≠ "ex:Plant" :=
    ⟨_, rfl, rfl, .head _, rfl, by decide⟩
  obtain ⟨leads, -, -, antisymm⟩ := Registry.isSubclassOf_partialOrder made
  obtain ⟨plant, hp, iri, steps⟩ := (leads tree hc "ex:Plant").1.mp below
  refine ⟨tree, plant, made, found, hp, iri, steps, Bool.eq_false_iff.mpr fun above => apart ?_⟩
  rw [antisymm tree hc plant hp (iri ▸ below) above, iri]

end ShapedGraph

import ShapedGraph.Proofs.Ancestry
import ShapedGraph.Proofs.Naming
import ShapedGraph.Proofs.Reordering

/-! Keys that name a parent and are looked up later. As the name of a parent a key means the class
with this IRI, and only if there is none the class with this compact name. Looking it up prefers the
compact name, and goes on from the IRI of that name if this was a compact name before. Both come to
one class, in whatever order compact names are entered, unless the IRI of the class is the compact
name of another one, and then a class need not derive from what its own declaration calls its
parent. -/

namespace ShapedGraph

open Relation (ReflTransGen)

namespace Registry

variable {contextUrl : String} {decls : List ClassDecl} {order : AliasOrder} {decl : ClassDecl}
  {key iri : String} {registry : Registry} {c : NodeClass}

/-! ## Looking up -/

theorem Denotes.eq_or_aliased (denotes : Denotes decls key iri) :
    key = iri ∨ Aliased decls key iri := by
  cases denotes with
  | iri => exact .inl rfl
  | token _ aliased => exact .inr aliased

theorem isSubclassOf_eq_true_iff {cls parent : String} :
    registry.isSubclassOf cls parent = true ↔ ∃ c p, registry.get? cls = some c ∧
      registry.get? parent = some p ∧ c.isSubclassOf p.iri = true := by
  rw [isSubclassOf]
  cases registry.get? cls <;> cases registry.get? parent <;> simp

/-- Asking by two keys whether one class derives from another asks it of the classes that the keys
are found to mean. -/
theorem isSubclassOf_keys_iff (made : build contextUrl decls order = .ok registry)
    {cls parent : String} (known : Known decls cls) (known' : Known decls parent) :
    registry.isSubclassOf cls parent = true ↔
      ∃ sub sup, Finds (order.arrange (aliasesOf decls)) cls sub ∧
        Finds (order.arrange (aliasesOf decls)) parent sup ∧
          ReflTransGen (ParentOf decls) sup sub := by
  obtain ⟨built, -⟩ := build_spec made
  rw [isSubclassOf_eq_true_iff]
  constructor
  · rintro ⟨c, p, found, found', below⟩
    obtain ⟨hc, finds⟩ := (get?_eq_some_iff made).mp found
    obtain ⟨-, finds'⟩ := (get?_eq_some_iff made).mp found'
    exact ⟨c.iri, p.iri, finds, finds', (built.isSubclassOf_iff hc).mp below⟩
  · rintro ⟨_, _, finds, finds', leads⟩
    obtain ⟨c, hc, rfl⟩ := built.exists_class (finds.mem_irisOf_iff.mpr known)
    obtain ⟨p, hp, rfl⟩ := built.exists_class (finds'.mem_irisOf_iff.mpr known')
    exact ⟨c, p, (get?_eq_some_iff made).mpr ⟨hc, finds⟩, (get?_eq_some_iff made).mpr ⟨hp, finds'⟩,
      (built.isSubclassOf_iff hc).mpr leads⟩

/-- The class that a declaration makes, and the one that a key among its parents was settled to. -/
theorem Built.exists_isParent (built : registry.Built decls) (counts : Counts decls decl)
    (named : key ∈ decl.parents) :
    ∃ c p, c.iri = decl.iri ∧ Denotes decls key p.iri ∧ registry.IsParent p c := by
  obtain ⟨iri, denotes⟩ := exists_denotes_iff.mpr (built.wellFormed.parents decl counts key named)
  have declared : decl.iri ∈ irisOf decls :=
    mem_irisOf (declaration?_eq_some_iff.mpr ⟨rfl, counts⟩)
  obtain ⟨c, hc, same⟩ := built.exists_class declared
  obtain ⟨p, hp, rfl⟩ := built.exists_class denotes.mem_irisOf
  refine ⟨c, p, same, denotes, hp, hc, (built.resolved c hc).parentOf_iff.mp ?_⟩
  exact ⟨decl, counts, same.symm, key, named, denotes⟩

/-- A class derives from every class that its declaration names as a parent. Looking up the key that
names the parent comes to it in every order in which compact names may be entered exactly if the IRI
of the parent is not shadowed, and the same goes for the IRI of the class itself. With both so, the
two keys are found to be those of a class and of one that it derives from. For one order the key
comes to the parent exactly if it is found to mean the parent's IRI, and the keys are found to be
those of a class and of one that it derives from exactly if that holds of the classes that they are
found to mean. -/
theorem isSubclassOf_parentKey_iff {contextUrl : String} {order : AliasOrder}
    (made : build contextUrl decls order = .ok registry) (counts : Counts decls decl)
    (named : key ∈ decl.parents) :
    ∃ c p, c.iri = decl.iri ∧ Denotes decls key p.iri ∧ registry.IsParent p c ∧
      c.isSubclassOf p.iri = true ∧
      (AlwaysFinds contextUrl decls key p ↔ Unshadowed decls p.iri) ∧
      (AlwaysFinds contextUrl decls c.iri c ↔ Unshadowed decls c.iri) ∧
      (Unshadowed decls p.iri → Unshadowed decls c.iri →
        registry.isSubclassOf c.iri key = true) ∧
      (registry.get? key = some p ↔ Finds (order.arrange (aliasesOf decls)) key p.iri) ∧
      (registry.isSubclassOf c.iri key = true ↔
        ∃ sub sup, Finds (order.arrange (aliasesOf decls)) c.iri sub ∧
          Finds (order.arrange (aliasesOf decls)) key sup ∧
            ReflTransGen (ParentOf decls) sup sub) := by
  obtain ⟨built, -⟩ := build_spec made
  obtain ⟨c, p, same, denotes, isParent⟩ := built.exists_isParent counts named
  have step : ReflTransGen (ParentOf decls) p.iri c.iri :=
    .single ((built.resolved c isParent.child).parentOf_iff.mpr isParent.named)
  have derives := isSubclassOf_keys_iff made (built.known isParent.child)
    (built.wellFormed.parents decl counts key named)
  refine ⟨c, p, same, denotes, isParent, (built.isSubclassOf_iff isParent.child).mpr step,
    alwaysFinds_iff made isParent.parent denotes.eq_or_aliased,
    alwaysFinds_iff made isParent.child (.inl rfl), fun shown shown' => derives.mpr ?_, ?_, derives⟩
  · have above := shown.finds order denotes.eq_or_aliased
    exact ⟨c.iri, p.iri, shown'.finds order (.inl rfl), above, step⟩
  · exact (get?_eq_some_iff made).trans (and_iff_right isParent.parent)

end Registry

namespace Sample

/-- A lamp that is called a light, before anything is declared under that IRI. -/
def lamp : ClassDecl where
  iri := "ex:Lamp"
  compact := some "ex:Light"
  nodeKind := none
  idAlias := none
  isAbstract := false
  extensible := none
  parents := []
  properties := []

def light : ClassDecl := { lamp with iri := "ex:Light", compact := none }

def torch : ClassDecl :=
  { lamp with iri := "ex:Torch", compact := some "Torch", parents := ["ex:Light"] }

def lantern : ClassDecl := { torch with iri := "ex:Lantern", compact := none, parents := ["Torch"] }

def lights : List ClassDecl := [lamp, light, torch, lantern]

def lightRegistry : Registry := (Registry.build "" lights).toOption.getD ⟨"", [], []⟩

end Sample

/-- A torch is declared to be a light and was settled so, but the IRI of lights is looked up to
lamps, and a torch is no lamp. -/
theorem Sample.torch_notLight : ∃ lamp light torch lantern,
    Registry.build "" Sample.lights = .ok Sample.lightRegistry ∧
      Sample.lightRegistry.classes = [lamp, light, torch, lantern] ∧
        Registry.Counts Sample.lights Sample.torch ∧ Sample.torch.parents = ["ex:Light"] ∧
          torch.iri = Sample.torch.iri ∧ torch.parents = [light.iri] ∧
            light.iri = "ex:Light" ∧ torch.isSubclassOf light.iri = true ∧
              Sample.lightRegistry.get? "ex:Light" = some lamp ∧ lamp ≠ light ∧
                Sample.lightRegistry.isSubclassOf torch.iri "ex:Light" = false :=
  ⟨_, _, _, _, rfl, rfl, ⟨[Sample.lamp, Sample.light], [Sample.lantern], rfl, by decide⟩, rfl, rfl,
    rfl, rfl, rfl, rfl, by decide, rfl⟩

/-- A lantern is a torch, and in whatever order names are entered it is found to be one by the
compact name of torches. -/
theorem Sample.lantern_isTorch : ∃ torch lantern,
    Sample.lightRegistry.IsParent torch lantern ∧ lantern.iri = "ex:Lantern" ∧
      Registry.AlwaysFinds "" Sample.lights "Torch" torch ∧
        Sample.lightRegistry.isSubclassOf "ex:Lantern" "Torch" = true := by
  have made : Registry.build "" Sample.lights = .ok Sample.lightRegistry := rfl
  have counts : Registry.Counts Sample.lights Sample.lantern :=
    ⟨[Sample.lamp, Sample.light, Sample.torch], [], rfl, by decide⟩
  obtain ⟨lantern, torch, same, denotes, isParent, -, always, -, derives, -⟩ :=
    Registry.isSubclassOf_parentKey_iff made counts (List.mem_singleton_self "Torch")
  have iri : torch.iri = "ex:Torch" :=
    Option.some.inj (Registry.parentIri?_eq_some_iff.mpr denotes).symm
  replace same : lantern.iri = "ex:Lantern" := same
  rw [iri] at always derives
  rw [same] at derives
  have shown : Registry.Unshadowed Sample.lights "ex:Torch" :=
    Registry.unshadowed_of_unnamed (by decide)
  have shown' : Registry.Unshadowed Sample.lights "ex:Lantern" :=
    Registry.unshadowed_of_unnamed (by decide)
  exact ⟨torch, lantern, isParent, same, always.mpr shown, derives shown shown'⟩

end ShapedGraph

import ShapedGraph.Proofs.Registry

/-! Models without their constraints. What is dropped of a property is what only validation looks
at, its validators and how many values it should have, so declarations make the same classes but for
that, and each key names the same class. -/

namespace ShapedGraph

def PropertyDecl.unconstrained (p : PropertyDecl) : PropertyDecl :=
  { p with minCount := none, maxCount := none, constraints := [] }

def ClassDecl.unconstrained (decl : ClassDecl) : ClassDecl :=
  { decl with properties := decl.properties.map PropertyDecl.unconstrained }

namespace Property

def unconstrained (p : Property) : Property :=
  { p with toPropertyDecl := p.toPropertyDecl.unconstrained, chain := [] }

theorem merge_unconstrained (found more : List Property) :
    merge (found.map unconstrained) (more.map unconstrained) =
      (merge found more).map unconstrained := by
  rw [merge, merge, List.map_append, List.filter_map]
  simp only [List.any_map]
  rfl

theorem compile_unconstrained {owner : String} {position : Nat} {decl : PropertyDecl}
    {p : Property} (h : compile owner position decl = .ok p) :
    compile owner position decl.unconstrained = .ok p.unconstrained := by
  obtain ⟨chain, -, h⟩ := Outcome.bind_eq_ok.mp h
  cases h
  rfl

theorem compileAll_unconstrained {owner : String} {decls : List PropertyDecl} {position : Nat}
    {ps : List Property} (h : compileAll owner position decls = .ok ps) :
    compileAll owner position (decls.map PropertyDecl.unconstrained) =
      .ok (ps.map unconstrained) := by
  induction decls generalizing position ps with
  | nil =>
    cases h
    rfl
  | cons decl decls ih =>
    obtain ⟨p, first, h⟩ := Outcome.bind_eq_ok.mp h
    obtain ⟨rest, others, h⟩ := Outcome.bind_eq_ok.mp h
    cases h
    rw [List.map_cons, compileAll, compile_unconstrained first, ih others]
    rfl

end Property

namespace NodeClass

def unconstrained (c : NodeClass) : NodeClass :=
  { c with own := c.own.map Property.unconstrained, layout := c.layout.map Property.unconstrained }

theorem ofParents_unconstrained (decl : ClassDecl) (parents : List NodeClass)
    (own : List Property) :
    ofParents decl.unconstrained (parents.map unconstrained) (own.map Property.unconstrained) =
      (ofParents decl parents own).unconstrained := by
  have inherited : ∀ found : List Property,
      (parents.map unconstrained).foldl (fun found parent => Property.merge found parent.layout)
        (found.map Property.unconstrained) =
          (parents.foldl (fun found parent => Property.merge found parent.layout) found).map
            Property.unconstrained := by
    induction parents with
    | nil => exact fun _ => rfl
    | cons parent parents ih =>
      intro found
      rw [List.map_cons, List.foldl_cons, List.foldl_cons, ← ih, ← Property.merge_unconstrained]
      rfl
  have layout := inherited []
  rw [List.map_nil] at layout
  rw [ofParents, ofParents, unconstrained, layout, Property.merge_unconstrained, List.head?_map,
    List.findSome?_map, List.any_map, List.foldl_map, List.map_map, Option.map_map]
  rfl

theorem lastPlace_unconstrained (c : NodeClass) (condition : Property → Bool) :
    c.unconstrained.lastPlace condition =
      c.lastPlace fun p => condition p.unconstrained := by
  rw [lastPlace, lastPlace, unconstrained, List.zipIdx_map, ← List.map_reverse, List.find?_map,
    Option.map_map]
  rfl

end NodeClass

namespace Registry

def unconstrained (registry : Registry) : Registry :=
  { registry with classes := registry.classes.map NodeClass.unconstrained }

theorem find?_unconstrained (classes : List NodeClass) (iri : String) :
    (classes.map NodeClass.unconstrained).find? (·.iri == iri) =
      (classes.find? (·.iri == iri)).map NodeClass.unconstrained :=
  List.find?_map ..

/-- A key names the same class with and without constraints. -/
theorem get?_unconstrained (registry : Registry) (key : String) :
    registry.unconstrained.get? key = (registry.get? key).map NodeClass.unconstrained := by
  have byIri (iri : String) :
      registry.unconstrained.byIri? iri = (registry.byIri? iri).map NodeClass.unconstrained :=
    find?_unconstrained registry.classes iri
  have aliases : registry.unconstrained.aliases = registry.aliases := rfl
  rw [get?, get?, aliases, byIri]

theorem declaration?_unconstrained (decls : List ClassDecl) (iri : String) :
    declaration? (decls.map ClassDecl.unconstrained) iri =
      (declaration? decls iri).map ClassDecl.unconstrained := by
  rw [declaration?, ← List.map_reverse]
  exact List.find?_map ..

theorem aliasesOf_unconstrained (decls : List ClassDecl) :
    aliasesOf (decls.map ClassDecl.unconstrained) = aliasesOf decls := by
  rw [aliasesOf, ← List.map_reverse, List.filterMap_map]
  rfl

theorem parentIri?_unconstrained (decls : List ClassDecl) (key : String) :
    parentIri? (decls.map ClassDecl.unconstrained) key = parentIri? decls key := by
  rw [parentIri?, declaration?_unconstrained, Option.isSome_map, aliasesOf_unconstrained]
  rfl

theorem irisOf_unconstrained (decls : List ClassDecl) :
    irisOf (decls.map ClassDecl.unconstrained) = irisOf decls := by
  rw [irisOf, List.map_map]
  rfl

/-- Settling the classes of some keys one after the other, if settling one does not look at
constraints. -/
theorem mapM_unconstrained {key : Type}
    {f g : key → StateT (List NodeClass) (Except RegistryError) NodeClass}
    (step : ∀ k before c after, (f k).run before = .ok (c, after) →
      (g k).run (before.map NodeClass.unconstrained) =
        .ok (c.unconstrained, after.map NodeClass.unconstrained))
    {keys : List key} {before after cs : List NodeClass}
    (h : (keys.mapM f).run before = .ok (cs, after)) :
    (keys.mapM g).run (before.map NodeClass.unconstrained) =
      .ok (cs.map NodeClass.unconstrained, after.map NodeClass.unconstrained) := by
  induction keys generalizing before cs with
  | nil =>
    cases h
    rfl
  | cons k keys ih =>
    rw [List.mapM_cons] at h
    obtain ⟨⟨c, middle⟩, first, h⟩ := Outcome.bind_eq_ok.mp h
    obtain ⟨⟨cs', after'⟩, rest, h⟩ := Outcome.bind_eq_ok.mp h
    cases h
    rw [List.mapM_cons]
    refine Outcome.bind_eq_ok.mpr ⟨_, step k before c middle first, ?_⟩
    exact Outcome.bind_eq_ok.mpr ⟨_, ih rest, rfl⟩

theorem resolve_unconstrained {decls : List ClassDecl} {steps : Nat} {path : List String}
    {iri : String} {before after : List NodeClass} {c : NodeClass}
    (h : (resolve decls steps path iri).run before = .ok (c, after)) :
    (resolve (decls.map ClassDecl.unconstrained) steps path iri).run
      (before.map NodeClass.unconstrained) =
        .ok (c.unconstrained, after.map NodeClass.unconstrained) := by
  induction steps generalizing path iri before after c with
  | zero => cases h
  | succ steps ih =>
    rw [resolve, StateT.run_bind, StateT.run_get, pure_bind] at h ⊢
    simp only [find?_unconstrained, declaration?_unconstrained] at h ⊢
    split at h
    · rename_i found
      cases h
      rw [found]
      rfl
    · rename_i missing
      rw [missing]
      split at h
      · cases h
      · rename_i fresh
        split at h
        · cases h
        · rename_i decl declared
          rw [StateT.run_bind] at h
          obtain ⟨⟨parents, middle⟩, settled, h⟩ := Outcome.bind_eq_ok.mp h
          simp only at h
          rw [StateT.run_bind] at h
          obtain ⟨⟨own, middle'⟩, compiled, h⟩ := Outcome.bind_eq_ok.mp h
          obtain ⟨rfl, compiles⟩ := run_liftM_eq_ok compiled
          cases h
          simp only [Option.map_none, if_neg fresh, declared, Option.map_some]
          rw [StateT.run_bind]
          refine Outcome.bind_eq_ok.mpr
            ⟨_, mapM_unconstrained (fun key before c after run => ?_) settled, ?_⟩
          · rw [parentIri?_unconstrained]
            cases named : parentIri? decls key with
            | none =>
              simp only [named] at run
              cases run
            | some parent =>
              simp only [named] at run
              exact ih run
          · have compiles' : Property.compileAll iri 0 decl.unconstrained.properties = _ :=
              Property.compileAll_unconstrained compiles
            rw [compiles', List.map_cons, ← NodeClass.ofParents_unconstrained]
            rfl

theorem missingTarget?_unconstrained (registry : Registry) (c : NodeClass) :
    registry.unconstrained.missingTarget? c.unconstrained = registry.missingTarget? c := by
  rw [missingTarget?, missingTarget?, NodeClass.unconstrained, List.findSome?_map]
  simp only [get?_unconstrained, Option.isSome_map]
  rfl

/-- Declarations that are accepted are accepted without their constraints, and make the same
registry but for these. -/
theorem build_unconstrained {contextUrl : String} {decls : List ClassDecl} {order : AliasOrder}
    {registry : Registry} (h : build contextUrl decls order = .ok registry) :
    build contextUrl (decls.map ClassDecl.unconstrained) order = .ok registry.unconstrained := by
  rw [build] at h
  obtain ⟨⟨classes, settled⟩, run, h⟩ := Outcome.bind_eq_ok.mp h
  simp only at h
  split at h
  · cases h
  · rename_i targets
    cases h
    rw [build, irisOf_unconstrained, aliasesOf_unconstrained]
    refine Outcome.bind_eq_ok.mpr ⟨_, mapM_unconstrained (fun _ _ _ _ => resolve_unconstrained) run,
      ?_⟩
    have accepted : (classes.map NodeClass.unconstrained).findSome?
        (Registry.missingTarget? ⟨contextUrl, classes.map NodeClass.unconstrained,
          enterAll (order.arrange (aliasesOf decls))⟩) = none := by
      rw [List.findSome?_map, ← targets]
      exact congrArg (List.findSome? · classes) (funext fun c =>
        missingTarget?_unconstrained
          ⟨contextUrl, classes, enterAll (order.arrange (aliasesOf decls))⟩ c)
    simp only [accepted]
    rfl

end Registry

end ShapedGraph

import ShapedGraph.Proofs.Aliases
import ShapedGraph.Proofs.Outcome

/-! Registries that were built: every class is made from its declaration and from parents that are
classes of the registry too, and every property that holds objects names a registered class. -/

namespace ShapedGraph.Registry

variable {decls : List ClassDecl}

/-- A class that is made from the declaration that counts for its IRI, and from parents among
`classes` that are made so themselves. -/
inductive Resolved (decls : List ClassDecl) (classes : List NodeClass) : NodeClass → Prop where
  | ofParents {decl : ClassDecl} {parents : List NodeClass} {own : List Property}
    (declared : declaration? decls decl.iri = some decl)
    (named : decl.parents.map (parentIri? decls) = parents.map fun p => some p.iri)
    (among : ∀ p ∈ parents, p ∈ classes) (each : ∀ p ∈ parents, Resolved decls classes p)
    (compiled : Property.compileAll decl.iri 0 decl.properties = .ok own) :
    Resolved decls classes (.ofParents decl parents own)

theorem Resolved.mono {classes more : List NodeClass} {c : NodeClass}
    (h : Resolved decls classes c) (sub : ∀ d ∈ classes, d ∈ more) : Resolved decls more c := by
  induction h with
  | ofParents declared named among _ compiled ih =>
    exact .ofParents declared named (fun p hp => sub p (among p hp)) ih compiled

/-- The classes that have been settled so far: all resolved, and one for an IRI. -/
structure Progress (decls : List ClassDecl) (classes : List NodeClass) : Prop where
  resolved : ∀ c ∈ classes, Resolved decls classes c
  unique : classes.Pairwise fun c d => c.iri ≠ d.iri

theorem eq_of_iri {classes : List NodeClass}
    (unique : classes.Pairwise fun c d => c.iri ≠ d.iri) {c d : NodeClass} (hc : c ∈ classes)
    (hd : d ∈ classes) (same : c.iri = d.iri) : c = d := by
  induction unique with
  | nil => cases hc
  | cons first _ ih =>
    rcases List.mem_cons.mp hc with rfl | hc'
    · rcases List.mem_cons.mp hd with rfl | hd'
      · rfl
      · exact absurd same (first d hd')
    · rcases List.mem_cons.mp hd with rfl | hd'
      · exact absurd same.symm (first c hc')
      · exact ih hc' hd'

/-- What settling some classes does to the state: what was settled stays, and what is added has
none of the IRIs that are being worked on. -/
structure Extends (path : List String) (before after : List NodeClass) : Prop where
  keeps : ∀ c ∈ before, c ∈ after
  fresh : ∀ c ∈ after, c ∈ before ∨ c.iri ∉ path

theorem Extends.refl (path : List String) (classes : List NodeClass) :
    Extends path classes classes := ⟨fun _ h => h, fun _ h => .inl h⟩

theorem Extends.trans {path : List String} {s1 s2 s3 : List NodeClass} (h1 : Extends path s1 s2)
    (h2 : Extends path s2 s3) : Extends path s1 s3 :=
  ⟨fun c h => h2.keeps c (h1.keeps c h),
    fun c h => (h2.fresh c h).elim (h1.fresh c) .inr⟩

/-- One step: a class of a new IRI is settled once its parents are. -/
theorem Progress.cons {classes : List NodeClass} {c : NodeClass}
    (progress : Progress decls classes) (resolved : Resolved decls classes c)
    (fresh : ∀ d ∈ classes, d.iri ≠ c.iri) : Progress decls (c :: classes) where
  resolved d hd := by
    rcases List.mem_cons.mp hd with rfl | hd
    · exact resolved.mono fun _ => List.mem_cons_of_mem _
    · exact (progress.resolved d hd).mono fun _ => List.mem_cons_of_mem _
  unique := List.pairwise_cons.mpr ⟨fun d hd => (fresh d hd).symm, progress.unique⟩

theorem Extends.cons {path : List String} {before after : List NodeClass} {c : NodeClass}
    (extends' : Extends (c.iri :: path) before after) (fresh : c.iri ∉ path) :
    Extends path before (c :: after) where
  keeps d hd := List.mem_cons_of_mem _ (extends'.keeps d hd)
  fresh d hd := by
    rcases List.mem_cons.mp hd with rfl | hd
    · exact .inr fresh
    · exact (extends'.fresh d hd).imp_right fun h hp => h (List.mem_cons_of_mem _ hp)

/-- Settling the classes of some keys one after the other, if settling one does `step`. -/
theorem mapM_spec {key : Type} (path : List String) (name : key → Option String)
    {f : key → StateT (List NodeClass) (Except RegistryError) NodeClass}
    (step : ∀ k before c after, (f k).run before = .ok (c, after) → Progress decls before →
      Progress decls after ∧ Extends path before after ∧ c ∈ after ∧ name k = some c.iri)
    {keys : List key} {before after : List NodeClass} {cs : List NodeClass}
    (h : (keys.mapM f).run before = .ok (cs, after)) (progress : Progress decls before) :
    Progress decls after ∧ Extends path before after ∧ (∀ c ∈ cs, c ∈ after) ∧
      keys.map name = cs.map fun c => some c.iri := by
  induction keys generalizing before cs with
  | nil =>
    cases h
    exact ⟨progress, Extends.refl _ _, fun _ h => (nomatch h), rfl⟩
  | cons k keys ih =>
    rw [List.mapM_cons] at h
    obtain ⟨⟨c, middle⟩, first, h⟩ := Outcome.bind_eq_ok.mp h
    obtain ⟨⟨cs', after'⟩, rest, h⟩ := Outcome.bind_eq_ok.mp h
    cases h
    obtain ⟨progress', extends', here, named⟩ := step k before c middle first progress
    obtain ⟨progress'', extends'', all, names⟩ := ih rest progress'
    refine ⟨progress'', extends'.trans extends'', fun d hd => ?_, ?_⟩
    · rcases List.mem_cons.mp hd with rfl | hd
      · exact extends''.keeps _ here
      · exact all d hd
    · rw [List.map_cons, List.map_cons, named, names]

theorem run_liftM_eq_ok {α : Type} {x : Except RegistryError α} {before after : List NodeClass}
    {a : α} (h : (liftM x : StateT (List NodeClass) (Except RegistryError) α).run before =
      .ok (a, after)) : before = after ∧ x = .ok a := by
  cases x with
  | error e => cases h
  | ok b => cases h; exact ⟨rfl, rfl⟩

theorem find?_iri {classes : List NodeClass} {iri : String} {c : NodeClass}
    (h : classes.find? (·.iri == iri) = some c) : c ∈ classes ∧ c.iri = iri :=
  ⟨List.mem_of_find?_eq_some h, by simpa using List.find?_some h⟩

theorem iri_of_declaration? {iri : String} {decl : ClassDecl}
    (h : declaration? decls iri = some decl) : decl.iri = iri := by
  simpa using List.find?_some h

theorem resolve_spec {steps : Nat} {path : List String} {iri : String}
    {before after : List NodeClass} {c : NodeClass}
    (h : (resolve decls steps path iri).run before = .ok (c, after))
    (progress : Progress decls before) :
    Progress decls after ∧ Extends path before after ∧ c ∈ after ∧ c.iri = iri := by
  induction steps generalizing path iri before after c with
  | zero => cases h
  | succ steps ih =>
    rw [resolve, StateT.run_bind, StateT.run_get, pure_bind] at h
    simp only at h
    split at h
    · rename_i found
      cases h
      obtain ⟨here, same⟩ := find?_iri found
      exact ⟨progress, Extends.refl _ _, here, same⟩
    · rename_i missing
      split at h
      · cases h
      · rename_i fresh
        split at h
        · cases h
        · rename_i decl declared
          obtain rfl := iri_of_declaration? declared
          rw [StateT.run_bind] at h
          obtain ⟨⟨parents, middle⟩, settled, h⟩ := Outcome.bind_eq_ok.mp h
          simp only at h
          rw [StateT.run_bind] at h
          obtain ⟨⟨own, middle'⟩, compiled, h⟩ := Outcome.bind_eq_ok.mp h
          obtain ⟨rfl, compiles⟩ := run_liftM_eq_ok compiled
          cases h
          obtain ⟨progress', extends', among, named⟩ :=
            mapM_spec (decl.iri :: path) (parentIri? decls)
              (fun key before c after run progress => by
                split at run
                · cases run
                · rename_i parent named
                  obtain ⟨progress', extends', here, rfl⟩ := ih run progress
                  exact ⟨progress', extends', here, named⟩) settled progress
          -- The class was not settled before, and settling its parents does not settle it.
          have new : ∀ d ∈ middle, d.iri ≠ decl.iri := by
            intro d hd same
            rcases extends'.fresh d hd with old | other
            · simpa [same] using List.find?_eq_none.mp missing d old
            · exact other (same ▸ List.mem_cons_self)
          have resolved : Resolved decls middle (.ofParents decl parents own) :=
            .ofParents declared named among (fun p hp => progress'.resolved p (among p hp)) compiles
          have unmet : decl.iri ∉ path := by simpa using fresh
          exact ⟨progress'.cons resolved new, extends'.cons unmet, List.mem_cons_self, rfl⟩

/-- What holds of the classes that the declared IRIs have been settled to. -/
structure Settled (decls : List ClassDecl) (classes : List NodeClass) : Prop where
  resolved : ∀ c ∈ classes, Resolved decls classes c
  iris : classes.map (·.iri) = irisOf decls
  unique : ∀ c ∈ classes, ∀ d ∈ classes, c.iri = d.iri → c = d

/-- What holds of a registry that was built from declarations. -/
structure Built (decls : List ClassDecl) (registry : Registry) : Prop where
  resolved : ∀ c ∈ registry.classes, Resolved decls registry.classes c
  iris : registry.classes.map (·.iri) = irisOf decls
  aliases : ∃ order : AliasOrder, registry.aliases = enterAll (order.arrange (aliasesOf decls))
  unique : ∀ c ∈ registry.classes, ∀ d ∈ registry.classes, c.iri = d.iri → c = d
  targets : ∀ c ∈ registry.classes, registry.missingTarget? c = none

theorem mem_irisOf {iri : String} {decl : ClassDecl} (h : declaration? decls iri = some decl) :
    iri ∈ irisOf decls := by
  have member := List.mem_reverse.mp (List.mem_of_find?_eq_some h)
  rw [irisOf, List.mem_eraseDups]
  exact iri_of_declaration? h ▸ List.mem_map_of_mem member

theorem settled_of_run {steps : Nat} {classes after : List NodeClass}
    (run : ((irisOf decls).mapM (resolve decls steps [])).run [] = .ok (classes, after)) :
    Settled decls classes := by
  obtain ⟨progress, -, among, named⟩ :=
    mapM_spec [] some
      (fun iri before c after run progress => by
        obtain ⟨progress', extends', here, rfl⟩ := resolve_spec run progress
        exact ⟨progress', extends', here, rfl⟩) run
      ⟨fun _ h => (nomatch h), .nil⟩
  have iris : classes.map (·.iri) = irisOf decls := by
    have := congrArg (List.filterMap id) named
    simpa [List.filterMap_map, Function.comp_def] using this.symm
  -- A class that was settled has a declared IRI, so it is the class that was asked for.
  have all : ∀ c ∈ after, c ∈ classes := by
    intro c hc
    have declared : c.iri ∈ irisOf decls := by
      cases progress.resolved c hc with
      | ofParents declared => exact mem_irisOf declared
    rw [← iris] at declared
    obtain ⟨d, hd, same⟩ := List.mem_map.mp declared
    rw [← eq_of_iri progress.unique (among d hd) hc same]
    exact hd
  exact ⟨fun c hc => (progress.resolved c (among c hc)).mono all, iris,
    fun c hc d hd => eq_of_iri progress.unique (among c hc) (among d hd)⟩

/-- The classes do not depend on the order in which compact names are entered. -/
theorem exists_run_of_build {contextUrl : String} {order : AliasOrder} {registry : Registry}
    (h : build contextUrl decls order = .ok registry) :
    (∃ after, ((irisOf decls).mapM (resolve decls (irisOf decls).length [])).run [] =
      .ok (registry.classes, after)) ∧
    registry.contextUrl = contextUrl ∧
    registry.aliases = enterAll (order.arrange (aliasesOf decls)) ∧
    ∀ c ∈ registry.classes, registry.missingTarget? c = none := by
  rw [build] at h
  obtain ⟨⟨classes, after⟩, run, h⟩ := Outcome.bind_eq_ok.mp h
  simp only at h
  split at h
  · cases h
  · rename_i targets
    cases h
    exact ⟨⟨after, run⟩, rfl, rfl, fun c hc => List.findSome?_eq_none_iff.mp targets c hc⟩

theorem classes_eq_of_build {contextUrl : String} {order order' : AliasOrder}
    {registry registry' : Registry} (h : build contextUrl decls order = .ok registry)
    (h' : build contextUrl decls order' = .ok registry') :
    registry.classes = registry'.classes := by
  obtain ⟨⟨after, run⟩, -⟩ := exists_run_of_build h
  obtain ⟨⟨after', run'⟩, -⟩ := exists_run_of_build h'
  exact congrArg Prod.fst (Except.ok.inj (run.symm.trans run'))

theorem build_spec {contextUrl : String} {order : AliasOrder} {registry : Registry}
    (h : build contextUrl decls order = .ok registry) :
    Built decls registry ∧ registry.contextUrl = contextUrl := by
  obtain ⟨⟨after, run⟩, url, aliases, targets⟩ := exists_run_of_build h
  have settled := settled_of_run run
  exact ⟨⟨settled.resolved, settled.iris, ⟨order, aliases⟩, settled.unique, targets⟩, url⟩

theorem mem_of_byIri? {registry : Registry} {iri : String} {c : NodeClass}
    (h : registry.byIri? iri = some c) : c ∈ registry.classes :=
  (find?_iri h).1

theorem Built.byIri?_eq_some {registry : Registry} (built : registry.Built decls) {c : NodeClass}
    (hc : c ∈ registry.classes) : registry.byIri? c.iri = some c := by
  cases found : registry.byIri? c.iri with
  | none => exact absurd (List.find?_eq_none.mp found c hc) (by simp)
  | some d =>
    obtain ⟨hd, same⟩ := find?_iri found
    rw [built.unique d hd c hc same]

theorem Built.byIri?_eq_some_iff {registry : Registry} (built : registry.Built decls) {iri : String}
    {c : NodeClass} : registry.byIri? iri = some c ↔ c ∈ registry.classes ∧ c.iri = iri := by
  refine ⟨find?_iri, ?_⟩
  rintro ⟨hc, rfl⟩
  exact built.byIri?_eq_some hc

/-- A key comes to the class with the IRI that it is found to mean among the compact names. -/
theorem get?_eq_some_iff {contextUrl : String} {order : AliasOrder} {registry : Registry}
    (h : build contextUrl decls order = .ok registry) {key : String} {c : NodeClass} :
    registry.get? key = some c ↔
      c ∈ registry.classes ∧ Finds (order.arrange (aliasesOf decls)) key c.iri := by
  obtain ⟨-, -, aliases, -⟩ := exists_run_of_build h
  rw [get?, aliases, (build_spec h).1.byIri?_eq_some_iff, finds_iff, eq_comm (a := c.iri)]

theorem mem_of_get? {registry : Registry} {key : String} {c : NodeClass}
    (h : registry.get? key = some c) : c ∈ registry.classes :=
  mem_of_byIri? h

theorem Resolved.isSubclassOf_self {classes : List NodeClass} {c : NodeClass}
    (h : Resolved decls classes c) : c.isSubclassOf c.iri = true := by
  cases h
  exact List.contains_iff_mem.mpr List.mem_cons_self

theorem mem_merge {found more : List Property} {p : Property}
    (h : p ∈ Property.merge found more) : p ∈ found ∨ p ∈ more :=
  (List.mem_append.mp h).imp_right fun h => (List.mem_filter.mp h).1

/-- What a class takes over from its parents, those of the first one first. -/
def inherited (parents : List NodeClass) : List Property :=
  parents.foldl (fun found parent => Property.merge found parent.layout) []

theorem inherited_concat (parents : List NodeClass) (parent : NodeClass) :
    inherited (parents ++ [parent]) = Property.merge (inherited parents) parent.layout :=
  List.foldl_append ..

theorem layout_ofParents (decl : ClassDecl) (parents : List NodeClass) (own : List Property) :
    (NodeClass.ofParents decl parents own).layout = Property.merge (inherited parents) own := rfl

theorem exists_of_mem_inherited {parents : List NodeClass} {p : Property}
    (h : p ∈ inherited parents) : ∃ parent ∈ parents, p ∈ parent.layout := by
  induction parents using List.reverseRecOn with
  | nil => cases h
  | append_singleton parents parent ih =>
    rw [inherited_concat] at h
    rcases mem_merge h with h | h
    · obtain ⟨earlier, among, hp⟩ := ih h
      exact ⟨earlier, List.mem_append_left _ among, hp⟩
    · exact ⟨parent, List.mem_append_right _ List.mem_cons_self, h⟩

/-- The properties of a class that it does not declare itself are properties of a parent. -/
theorem mem_layout_ofParents {decl : ClassDecl} {parents : List NodeClass} {own : List Property}
    {p : Property} (h : p ∈ (NodeClass.ofParents decl parents own).layout) :
    p ∈ own ∨ ∃ parent ∈ parents, p ∈ parent.layout :=
  (mem_merge h).symm.imp_right exists_of_mem_inherited

/-- Every property in the layout of a class is declared by a class of the registry. -/
theorem Resolved.declared {classes : List NodeClass} {c : NodeClass}
    (h : Resolved decls classes c) (hc : c ∈ classes) {p : Property} (hp : p ∈ c.layout) :
    ∃ d ∈ classes, p ∈ d.own := by
  induction h with
  | @ofParents decl parents own _ _ among _ _ ih =>
    rcases mem_layout_ofParents hp with hp | ⟨parent, hparent, hp⟩
    · exact ⟨_, hc, hp⟩
    · exact ih parent hparent (among parent hparent) hp

/-- The class that a property asks of the objects it holds, if it holds objects. -/
def targetOf (registry : Registry) (p : Property) : Option NodeClass :=
  match p.kind with
  | .object cls => registry.get? cls
  | .scalar _ => none

theorem mem_of_targetOf {registry : Registry} {p : Property} {c : NodeClass}
    (h : registry.targetOf p = some c) : c ∈ registry.classes := by
  rw [targetOf] at h
  split at h
  · exact mem_of_get? h
  · cases h

theorem targetOf_eq {registry : Registry} {p : Property} {cls : String} (h : p.kind = .object cls) :
    registry.targetOf p = registry.get? cls := by
  rw [targetOf, h]

/-- A property that holds objects asks for a registered class. -/
theorem Built.isSome_targetOf {registry : Registry} (built : Built decls registry) {c : NodeClass}
    (hc : c ∈ registry.classes) {p : Property} (hp : p ∈ c.layout) {cls : String}
    (kind : p.kind = .object cls) : (registry.targetOf p).isSome = true := by
  obtain ⟨d, hd, own⟩ := (built.resolved c hc).declared hc hp
  have := List.findSome?_eq_none_iff.mp (built.targets d hd) p own
  rw [kind] at this
  rw [targetOf_eq kind]
  simpa [Option.isSome_iff_ne_none] using this

theorem Built.isSubclassOf_self {registry : Registry} (built : Built decls registry)
    {c : NodeClass} (hc : c ∈ registry.classes) : c.isSubclassOf c.iri = true :=
  (built.resolved c hc).isSubclassOf_self

end ShapedGraph.Registry

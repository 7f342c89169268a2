import Mathlib.Data.List.Nodup
import ShapedGraph.Proofs.Choice
import ShapedGraph.Proofs.Declarations
import ShapedGraph.Proofs.Json
import ShapedGraph.Proofs.Reading

/-! Declarations in another order. If each class is declared once and each compact name is given
once, then what a parent's name means does not depend on the order, nor does any class that is made.
A name is looked up to the same class too, if no compact name leads to one by another. The classes
of a registry come in another order, which reading does not notice: it finds classes by name, and it
tries candidates in the order of their IRIs. -/

namespace ShapedGraph

namespace Registry

variable {decls decls' : List ClassDecl} {decl : ClassDecl} {key iri token : String}

/-! ## What names mean -/

/-- Each class is declared once, and no compact name is given twice. -/
structure Distinct (decls : List ClassDecl) : Prop where
  iris : (decls.map (·.iri)).Nodup
  tokens : (decls.filterMap (·.compact)).Nodup

theorem Distinct.perm (distinct : Distinct decls) (perm : decls.Perm decls') : Distinct decls' :=
  ⟨(perm.map _).nodup_iff.mp distinct.iris, (perm.filterMap _).nodup_iff.mp distinct.tokens⟩

/-- A class that has a compact name is the only one that may have its IRI for one, so no compact name
leads by another one to a class. -/
def Direct (decls : List ClassDecl) : Prop :=
  ∀ decl ∈ decls, decl.compact ≠ none → ∀ other ∈ decls, other.compact = some decl.iri →
    other.iri = decl.iri

instance (decls : List ClassDecl) : Decidable (Direct decls) :=
  inferInstanceAs (Decidable (∀ decl ∈ decls, decl.compact ≠ none → ∀ other ∈ decls,
    other.compact = some decl.iri → other.iri = decl.iri))

theorem Direct.perm (direct : Direct decls) (perm : decls.Perm decls') : Direct decls' :=
  fun decl among named other among' =>
    direct decl (perm.mem_iff.mpr among) named other (perm.mem_iff.mpr among')

/-- What only one element gives is given by no later element. -/
theorem exists_split_of_nodup {α β : Type} {f : α → Option β} {items : List α} {a : α} {b : β}
    (nodup : (items.filterMap f).Nodup) (among : a ∈ items) (given : f a = some b) :
    ∃ before after, items = before ++ a :: after ∧ ∀ later ∈ after, f later ≠ some b := by
  obtain ⟨before, after, rfl⟩ := List.append_of_mem among
  refine ⟨before, after, rfl, fun later there again => ?_⟩
  rw [List.filterMap_append, List.filterMap_cons_some given] at nodup
  have once := (List.nodup_cons.mp (List.nodup_append.mp nodup).2.1).1
  exact once (List.mem_filterMap.mpr ⟨later, there, again⟩)

theorem Distinct.counts_iff (distinct : Distinct decls) : Counts decls decl ↔ decl ∈ decls := by
  constructor
  · rintro ⟨before, after, rfl, -⟩
    simp
  · intro among
    have nodup := distinct.iris
    rw [← List.filterMap_eq_map] at nodup
    obtain ⟨before, after, split, last⟩ := exists_split_of_nodup nodup among rfl
    exact ⟨before, after, split, fun later there same => last later there (congrArg some same)⟩

theorem Distinct.aliased_iff (distinct : Distinct decls) :
    Aliased decls token iri ↔ ∃ decl ∈ decls, decl.compact = some token ∧ decl.iri = iri := by
  constructor
  · rintro ⟨before, decl, after, rfl, named, same, -⟩
    exact ⟨decl, by simp, named, same⟩
  · rintro ⟨decl, among, named, same⟩
    obtain ⟨before, after, split, last⟩ := exists_split_of_nodup distinct.tokens among named
    exact ⟨before, decl, after, split, named, same, last⟩

theorem Direct.unshadowed (direct : Direct decls) (distinct : Distinct decls)
    (aliased : Aliased decls token iri) : Unshadowed decls iri := by
  obtain ⟨decl, among, named, rfl⟩ := distinct.aliased_iff.mp aliased
  intro other aliased'
  obtain ⟨decl', among', named', rfl⟩ := distinct.aliased_iff.mp aliased'
  exact direct decl among (named ▸ Option.some_ne_none token) decl' among' named'

section Perm

variable (distinct : Distinct decls) (moved : decls.Perm decls')

include distinct moved

theorem counts_perm : Counts decls decl ↔ Counts decls' decl := by
  rw [distinct.counts_iff, (distinct.perm moved).counts_iff, moved.mem_iff]

theorem aliased_perm : Aliased decls token iri ↔ Aliased decls' token iri := by
  rw [distinct.aliased_iff, (distinct.perm moved).aliased_iff]
  simp only [moved.mem_iff]

theorem declaration?_perm (iri : String) : declaration? decls iri = declaration? decls' iri := by
  refine Option.ext fun decl => ?_
  rw [declaration?_eq_some_iff, declaration?_eq_some_iff, counts_perm distinct moved]

theorem find?_aliasesOf_perm (token : String) :
    ((aliasesOf decls).find? (·.token == token)).map (·.iri) =
      ((aliasesOf decls').find? (·.token == token)).map (·.iri) := by
  refine Option.ext fun iri => ?_
  rw [← aliased_iff, ← aliased_iff, aliased_perm distinct moved]

theorem parentIri?_perm (key : String) : parentIri? decls key = parentIri? decls' key := by
  rw [parentIri?, parentIri?, declaration?_perm distinct moved, find?_aliasesOf_perm distinct moved]

/-- What a key is found to mean depends neither on the order of the declarations nor on the order in
which their compact names are entered. -/
theorem Finds.perm {order : AliasOrder} (finds : Finds (order.arrange (aliasesOf decls)) key iri)
    (direct : Direct decls) (order' : AliasOrder) :
    Finds (order'.arrange (aliasesOf decls')) key iri := by
  by_cases named : ∃ iri', Aliased decls key iri'
  · obtain ⟨iri', aliased⟩ := named
    have aliased' := (aliased_perm distinct moved).mp aliased
    obtain rfl := finds.unique ((direct.unshadowed distinct aliased).finds order (.inr aliased))
    have shown := (direct.perm moved).unshadowed (distinct.perm moved) aliased'
    exact shown.finds order' (.inr aliased')
  · have unnamed : ∀ entry ∈ order'.arrange (aliasesOf decls'), entry.token ≠ key := by
      rintro entry there rfl
      have aliased' := AliasOrder.mem_arrange_aliasesOf.mp there
      exact named ⟨_, (aliased_perm distinct moved).mpr aliased'⟩
    rcases finds.eq_or_exists_entry with ⟨rfl, -⟩ | ⟨⟨entry, there, rfl⟩, -⟩
    · exact .itself unnamed
    · exact absurd ⟨_, AliasOrder.mem_arrange_aliasesOf.mp there⟩ named

omit distinct in
theorem Known.perm (known : Known decls key) : Known decls' key := by
  obtain ⟨decl, among, named⟩ := known
  exact ⟨decl, moved.mem_iff.mp among, named⟩

theorem parentOf_perm : ParentOf decls = ParentOf decls' := by
  funext parent child
  refine propext (exists_congr fun decl => ?_)
  simp only [counts_perm distinct moved, ← parentIri?_eq_some_iff, parentIri?_perm distinct moved]

theorem WellFormed.perm (wellFormed : WellFormed decls) : WellFormed decls' where
  parents decl counts key among :=
    (wellFormed.parents decl ((counts_perm distinct moved).mpr counts) key among).perm moved
  acyclic := parentOf_perm distinct moved ▸ wellFormed.acyclic
  constraints decl counts := wellFormed.constraints decl ((counts_perm distinct moved).mpr counts)
  targets decl counts p among cls kind :=
    (wellFormed.targets decl ((counts_perm distinct moved).mpr counts) p among cls kind).perm moved

end Perm

/-! ## The classes that are made -/

variable {registry registry' : Registry} {c : NodeClass}

theorem eq_of_map_iri {parents parents' : List NodeClass}
    (each : ∀ p ∈ parents, ∀ q ∈ parents', p.iri = q.iri → p = q)
    (iris : parents.map (fun p => some p.iri) = parents'.map fun p => some p.iri) :
    parents = parents' := by
  induction parents generalizing parents' with
  | nil => exact (List.map_eq_nil_iff.mp iris.symm).symm
  | cons p parents ih =>
    cases parents' with
    | nil => cases iris
    | cons q parents' =>
      obtain ⟨first, rest⟩ := List.cons.inj iris
      rw [each p List.mem_cons_self q List.mem_cons_self (Option.some.inj first)]
      refine congrArg (q :: ·) (ih (fun r hr s hs => ?_) rest)
      exact each r (List.mem_cons_of_mem _ hr) s (List.mem_cons_of_mem _ hs)

/-- What a class is settled to depends on nothing but what names mean. -/
theorem Resolved.eq_of_iri {classes classes' : List NodeClass} {c c' : NodeClass}
    (resolved : Resolved decls classes c) (resolved' : Resolved decls' classes' c')
    (declarations : ∀ iri, declaration? decls iri = declaration? decls' iri)
    (names : ∀ key, parentIri? decls key = parentIri? decls' key) (same : c.iri = c'.iri) :
    c = c' := by
  induction resolved generalizing c' with
  | @ofParents decl parents own declared named among each compiled ih =>
    cases resolved' with
    | @ofParents decl' parents' own' declared' named' among' each' compiled' =>
      replace same : decl.iri = decl'.iri := same
      rw [declarations, same] at declared
      cases declared.symm.trans declared'
      cases compiled.symm.trans compiled'
      rw [funext names, named'] at named
      rw [eq_of_map_iri (fun p hp q hq => ih p hp (each' q hq)) named.symm]

namespace Built

theorem nodup (built : registry.Built decls) : registry.classes.Nodup := by
  have apart : (registry.classes.map (·.iri)).Nodup := by
    rw [built.iris]
    refine (listing_irisOf decls).ordered.imp fun earlier same => ?_
    exact Nat.lt_irrefl _ (same ▸ earlier)
  exact List.Nodup.of_map _ apart

variable (built : registry.Built decls) (built' : registry'.Built decls')
  (distinct : Distinct decls) (perm : decls.Perm decls')

include built built' distinct perm

theorem mem_classes_perm (hc : c ∈ registry.classes) : c ∈ registry'.classes := by
  have declared : c.iri ∈ irisOf decls := built.iris ▸ List.mem_map_of_mem hc
  obtain ⟨decl, among, same⟩ := mem_irisOf_iff.mp declared
  have declared' : c.iri ∈ irisOf decls' := mem_irisOf_iff.mpr ⟨decl, perm.mem_iff.mp among, same⟩
  rw [← built'.iris] at declared'
  obtain ⟨c', hc', same'⟩ := List.mem_map.mp declared'
  rwa [(built.resolved c hc).eq_of_iri (built'.resolved c' hc') (declaration?_perm distinct perm)
    (parentIri?_perm distinct perm) same'.symm]

theorem classes_perm : registry.classes.Perm registry'.classes :=
  (List.perm_ext_iff_of_nodup built.nodup built'.nodup).mpr fun _ =>
    ⟨mem_classes_perm built built' distinct perm,
      mem_classes_perm built' built (distinct.perm perm) perm.symm⟩

theorem get?_perm (direct : Direct decls) (key : String) :
    registry.get? key = registry'.get? key := by
  obtain ⟨order, aliases⟩ := built.aliases
  obtain ⟨order', aliases'⟩ := built'.aliases
  have finds := finds_standsFor (order.arrange (aliasesOf decls)) key
  have meant := finds.perm distinct perm direct order'
  refine Option.ext fun c => ?_
  rw [get?, get?, aliases, aliases', finds_iff.mp meant, built.byIri?_eq_some_iff,
    built'.byIri?_eq_some_iff, (classes_perm built built' distinct perm).mem_iff]

end Built

theorem perm_insertByIri (c : NodeClass) (classes : List NodeClass) :
    (insertByIri c classes).Perm (c :: classes) := by
  induction classes with
  | nil => exact .refl _
  | cons d rest ih =>
    rw [insertByIri]
    split
    · exact .refl _
    · exact (ih.cons d).trans (.swap c d rest)

/-- Candidates are put in order, and as their IRIs differ there is only one order. -/
theorem candidates_perm (perm : registry.classes.Perm registry'.classes)
    (unique : ∀ c ∈ registry.classes, ∀ d ∈ registry.classes, c.iri = d.iri → c = d)
    (target : Option NodeClass) : registry.candidates target = registry'.candidates target := by
  have sorting : ∀ classes : List NodeClass, (classes.foldr insertByIri []).Perm classes := by
    intro classes
    induction classes with
    | nil => exact .refl _
    | cons d rest ih => exact (perm_insertByIri d _).trans (ih.cons d)
  refine List.Perm.eq_of_pairwise (fun c d hc hd le ge => ?_) (ascending_candidates registry target)
    (ascending_candidates registry' target) ?_
  · have there := perm.mem_iff.mpr (mem_candidates.mp hd).1
    exact unique c (mem_candidates.mp hc).1 d there (String.le_antisymm le ge)
  · rw [candidates, candidates]
    exact (sorting _).trans ((perm.filter _).trans (sorting _).symm)

/-- What reading goes by is the same in both registries. -/
structure Interchangeable (registry registry' : Registry) : Prop where
  get? : ∀ key, registry.get? key = registry'.get? key
  candidates : ∀ target, registry.candidates target = registry'.candidates target

end Registry

/-! ## Reading -/

namespace Decoder

variable {d d' : Decoder} {context : Context} {path : Path} {json : Json}

theorem decodeItems_congr {α : Type} {decode decode' : Path → Json → Decoded α} {items : List Json}
    (each : ∀ item ∈ items, ∀ path, decode path item = decode' path item) (path : Path)
    (position : Nat) :
    decodeItems decode path position items = decodeItems decode' path position items := by
  induction items generalizing position with
  | nil => rfl
  | cons item items ih =>
    obtain ⟨here, later⟩ := List.forall_mem_cons.mp each
    rw [decodeItems, decodeItems, here, ih later]

theorem choose_congr (same : d.registry.Interchangeable d'.registry) (path : Path) (type : String)
    (target : Option NodeClass) : d.choose path type target = d'.choose path type target := by
  unfold choose
  simp only [same.get?, same.candidates]

/-- Everything that can be read from a value is read alike with both decoders. -/
structure ReadsSame (d d' : Decoder) (json : Json) : Prop where
  object : ∀ path target, d.decodeObject path target json = d'.decodeObject path target json
  references : ∀ context target path,
    d.decodeReferenceList context target path json = d'.decodeReferenceList context target path json
  values : ∀ path, d.decodeExtensionList path json = d'.decodeExtensionList path json

theorem decodeMembers_congr (same : d.registry.Interchangeable d'.registry)
    {members : List (String × Json)} (each : ∀ m ∈ members, d.ReadsSame d' m.2) (path : Path)
    (o : Object) : d.decodeMembers path members o = d'.decodeMembers path members o := by
  induction members generalizing o with
  | nil => rfl
  | cons m members ih =>
    obtain ⟨here, later⟩ := List.forall_mem_cons.mp each
    rw [decodeMembers, decodeMembers]
    simp only [ih later, here.object, here.references, here.values, contentOf, same.get?]

theorem decodeObject_congr (same : d.registry.Interchangeable d'.registry)
    (limit : d.maxDepth = d'.maxDepth) {members : List (String × Json)}
    (each : ∀ m ∈ members, d.ReadsSame d' m.2) (path : Path) (target : Option NodeClass) :
    d.decodeObject path target (.object members) =
      d'.decodeObject path target (.object members) := by
  rw [decodeObject, decodeObject, limit]
  simp only [choose_congr same, decodeMembers_congr same each]

theorem readsSame (same : d.registry.Interchangeable d'.registry)
    (limit : d.maxDepth = d'.maxDepth) (json : Json) : d.ReadsSame d' json := by
  have noObject : ∀ json : Json, (∀ members, json ≠ .object members) → ∀ path target,
      d.decodeObject path target json = d'.decodeObject path target json := by
    intro json notObject path target
    rw [decodeObject_of_not_object _ _ _ notObject, decodeObject_of_not_object _ _ _ notObject,
      limit]
  induction json using Json.induct with
  | null | bool | integer | float | string =>
    exact ⟨noObject _ (by simp), fun _ _ _ => rfl, fun _ => rfl⟩
  | list items ih =>
    refine ⟨noObject _ (by simp), fun context target path => ?_, fun path => ?_⟩
    · rw [decodeReferenceList, decodeReferenceList, decodeReferences_eq, decodeReferences_eq]
      refine decodeItems_congr (fun item among here => ?_) path 0
      rw [(ih item among).object]
    · rw [decodeExtensionList, decodeExtensionList, decodeExtensions_eq, decodeExtensions_eq]
      refine decodeItems_congr (fun item among here => ?_) path 0
      simp only [decodeExtension, (ih item among).object, (ih item among).values]
  | object members ih =>
    exact ⟨decodeObject_congr same limit ih, fun _ _ _ => rfl, fun _ => rfl⟩

end Decoder

namespace Registry

variable {decls decls' : List ClassDecl}

/-- The order in which classes are declared, and the one in which their compact names are entered,
make no difference to whether a registry can be built and to the classes in it. If no compact name
leads by another one to a class, they make none to what names mean and to how anything is read. -/
theorem build_perm (distinct : Distinct decls) (perm : decls.Perm decls') (contextUrl : String)
    (order order' : AliasOrder) :
    ((∃ registry, build contextUrl decls order = .ok registry) ↔
      ∃ registry, build contextUrl decls' order' = .ok registry) ∧
    ∀ registry registry', build contextUrl decls order = .ok registry →
      build contextUrl decls' order' = .ok registry' →
        registry.classes.Perm registry'.classes ∧
        (Direct decls →
          (∀ key, registry.get? key = registry'.get? key) ∧
          (∀ cls parent, registry.isSubclassOf cls parent = registry'.isSubclassOf cls parent) ∧
          ∀ maxDepth path target json,
            (Decoder.mk registry maxDepth).decodeObject path target json =
              (Decoder.mk registry' maxDepth).decodeObject path target json) := by
  refine ⟨⟨fun ⟨_, h⟩ => ?_, fun ⟨_, h⟩ => ?_⟩, fun registry registry' h h' => ?_⟩
  · exact ((build_spec h).1.wellFormed.perm distinct perm).exists_build contextUrl order'
  · have back := (build_spec h).1.wellFormed.perm (distinct.perm perm) perm.symm
    exact back.exists_build contextUrl order
  · obtain ⟨built, -⟩ := build_spec h
    obtain ⟨built', -⟩ := build_spec h'
    have classes := built.classes_perm built' distinct perm
    refine ⟨classes, fun direct => ?_⟩
    have found := built.get?_perm built' distinct perm direct
    have same : registry.Interchangeable registry' :=
      ⟨found, candidates_perm classes built.unique⟩
    refine ⟨found, fun cls parent => ?_, fun maxDepth path target json => ?_⟩
    · rw [isSubclassOf, isSubclassOf, found, found]
    · have limit : (Decoder.mk registry maxDepth).maxDepth =
          (Decoder.mk registry' maxDepth).maxDepth := rfl
      exact (Decoder.readsSame same limit json).object path target

end Registry

namespace Sample

/-- A shed is a building. -/
def shed : ClassDecl where
  iri := "ex:Shed"
  compact := some "Shed"
  nodeKind := none
  idAlias := none
  isAbstract := false
  extensible := some true
  parents := ["Building"]
  properties := []

def building : ClassDecl :=
  { shed with
    iri := "ex:Building"
    compact := some "Building"
    parents := []
    properties := [
      ⟨"height", "ex:height", some "height", .scalar .integer, false, none, none, [], []⟩] }

/-- A hut, which no class is registered for. -/
def hut : Json := .object [("@type", .string "ex:Hut"), ("height", .integer 3)]

end Sample

/-- A child may come before its parent, and the search for a class comes to the same one. -/
theorem Sample.hut_readAlike : ∃ registry registry' o,
    Registry.build "" [Sample.shed, Sample.building] = .ok registry ∧
      Registry.build "" [Sample.building, Sample.shed] = .ok registry' ∧ registry ≠ registry' ∧
        o.cls.iri = "ex:Building" ∧
          (Decoder.mk registry 5).decodeObject .root none Sample.hut = .ok o ∧
            (Decoder.mk registry' 5).decodeObject .root none Sample.hut = .ok o := by
  have distinct : Registry.Distinct [Sample.shed, Sample.building] := ⟨by decide, by decide⟩
  have perm : [Sample.shed, Sample.building].Perm [Sample.building, Sample.shed] := .swap ..
  obtain ⟨registry, registry', o, built, built', differ, cls, read⟩ :
      ∃ registry registry' o, Registry.build "" [Sample.shed, Sample.building] = .ok registry ∧
        Registry.build "" [Sample.building, Sample.shed] = .ok registry' ∧ registry ≠ registry' ∧
          o.cls.iri = "ex:Building" ∧
            (Decoder.mk registry 5).decodeObject .root none Sample.hut = .ok o :=
    ⟨_, _, _, rfl, rfl, by decide, rfl, rfl⟩
  obtain ⟨-, alike⟩ := Registry.build_perm distinct perm "" .latestFirst .latestFirst
  obtain ⟨-, -, reading⟩ := (alike registry registry' built built').2 (by decide)
  exact ⟨registry, registry', o, built, built', differ, cls, read, reading 5 _ _ _ ▸ read⟩

end ShapedGraph

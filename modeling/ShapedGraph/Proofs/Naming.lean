import ShapedGraph.Proofs.Ancestry
import ShapedGraph.Proofs.Changes
import ShapedGraph.Proofs.Choice
import ShapedGraph.Proofs.Encoding
import ShapedGraph.Proofs.Reading

/-! The names of a class. Whatever the order in which compact names are entered, a class is found by
its IRI unless the IRI is also a compact name that was last given to another class. By the name that
its objects are written with the class is found that this name was last given to, if that class is
found by its own IRI; else the one that is found in its place may be. So once a later declaration
has taken the name of a class over, objects of the class are read as those of another. -/

namespace ShapedGraph

/-! ## Classes by name -/

namespace Registry

variable {contextUrl : String} {decls : List ClassDecl} {order : AliasOrder} {registry : Registry}
  {c : NodeClass} {key token iri : String}

theorem Aliased.unique {other : String} (aliased : Aliased decls token iri)
    (again : Aliased decls token other) : iri = other :=
  Option.some.inj ((aliased_iff.mp aliased).symm.trans (aliased_iff.mp again))

/-- The class is found under the key in whatever order the compact names are entered. -/
def AlwaysFinds (contextUrl : String) (decls : List ClassDecl) (key : String) (c : NodeClass) :
    Prop :=
  ∀ order registry, build contextUrl decls order = .ok registry → registry.get? key = some c

/-- The last declaration with the compact name of the class, if it has one, is about the class. -/
def OwnsName (decls : List ClassDecl) (c : NodeClass) : Prop :=
  ∀ token, c.compact = some token → Aliased decls token c.iri

/-- The order in which the compact names with this token are entered before all others. -/
def AliasOrder.putFirst (token : String) : AliasOrder where
  arrange given :=
    (latest given).filter (·.token == token) ++ (latest given).filter (·.token != token)
  perm _ := List.filter_append_perm ..

/-- A compact name that is entered first means the IRI that it was given with, and so do the compact
names that were given with its token for their IRI. -/
theorem finds_putFirst {other : String} (aliased : Aliased decls iri other)
    (named : key = iri ∨ Aliased decls key iri) (differ : other ≠ iri) :
    Finds ((AliasOrder.putFirst iri).arrange (aliasesOf decls)) key other := by
  have once := (AliasOrder.putFirst iri).once (aliasesOf decls)
  have first : (AliasOrder.putFirst iri).arrange (aliasesOf decls) =
      ⟨iri, other⟩ :: (latest (aliasesOf decls)).filter (·.token != iri) := by
    have there : ⟨iri, other⟩ ∈ latest (aliasesOf decls) := aliased.mem_arrange .latestFirst
    exact congrArg (· ++ _) ((once_latest _).filter_token there)
  rw [first] at once ⊢
  refine finds_of_first once (named.imp_right fun aliased' => ?_)
  have there := aliased'.mem_arrange (.putFirst iri)
  rw [first] at there
  refine (List.mem_cons.mp there).resolve_left fun same => ?_
  exact differ (congrArg ClassAlias.iri same).symm

/-- Where an IRI is shadowed, some order leads away from it: the one that enters it first. -/
theorem alwaysFinds_iff (made : build contextUrl decls order = .ok registry)
    (hc : c ∈ registry.classes) (named : key = c.iri ∨ Aliased decls key c.iri) :
    AlwaysFinds contextUrl decls key c ↔ Unshadowed decls c.iri := by
  constructor
  · intro always other aliased
    by_contra differ
    let first := AliasOrder.putFirst c.iri
    obtain ⟨registry', made'⟩ := (build_spec made).1.wellFormed.exists_build contextUrl first
    obtain ⟨-, finds⟩ := (get?_eq_some_iff made').mp (always first registry' made')
    exact differ ((finds_putFirst aliased named differ).unique finds)
  · intro unshadowed order' registry' made'
    refine (get?_eq_some_iff made').mpr ⟨?_, unshadowed.finds order' named⟩
    exact classes_eq_of_build made made' ▸ hc

/-- The compact name of a class stands for some class, as a declaration of the class gives it. -/
theorem Built.exists_aliased (built : registry.Built decls) (hc : c ∈ registry.classes)
    (named : c.compact = some token) : ∃ iri, Aliased decls token iri := by
  refine exists_aliased_iff.mpr ?_
  cases built.resolved c hc with
  | @ofParents decl parents own declared =>
    exact ⟨decl, List.mem_reverse.mp (List.mem_of_find?_eq_some declared), named⟩

/-- The class that the type name of a class was last given to. -/
theorem Built.exists_typeName (built : registry.Built decls) (hc : c ∈ registry.classes) :
    ∃ x ∈ registry.classes, (c.typeName = x.iri ∨ Aliased decls c.typeName x.iri) ∧
      (∀ token, c.compact = some token → Aliased decls token x.iri) ∧
        (x = c ↔ OwnsName decls c) := by
  cases named : c.compact with
  | none =>
    have type : c.typeName = c.iri := by rw [NodeClass.typeName, named, Option.getD_none]
    refine ⟨c, hc, .inl type, nofun, iff_of_true rfl fun token same => ?_⟩
    cases named.symm.trans same
  | some token =>
    have type : c.typeName = token := by rw [NodeClass.typeName, named, Option.getD_some]
    obtain ⟨iri, aliased⟩ := built.exists_aliased hc named
    obtain ⟨x, hx, rfl⟩ := built.exists_class aliased.mem_irisOf
    refine ⟨x, hx, .inr (type ▸ aliased), fun other same => ?_, fun same other given => ?_,
      fun owns => ?_⟩
    · cases same
      exact aliased
    · cases named.symm.trans given
      exact same ▸ aliased
    · exact built.unique x hx c hc (aliased.unique (owns token named))

/-- Some class is found by the IRI or a compact name of a class: that class, or the one that is
found by its IRI. -/
theorem exists_get?_of_named (made : build contextUrl decls order = .ok registry)
    (hc : c ∈ registry.classes) (named : key = c.iri ∨ Aliased decls key c.iri) :
    ∃ b ∈ registry.classes, registry.get? key = some b ∧
      (b = c ∨ registry.get? c.iri = some b) := by
  obtain ⟨built, -⟩ := build_spec made
  have known : Known decls key := by
    rcases named with rfl | aliased
    · exact built.known hc
    · obtain ⟨decl, among, same⟩ := exists_aliased_iff.mp ⟨_, aliased⟩
      exact ⟨decl, among, .inr same⟩
  have finds := finds_standsFor (order.arrange (aliasesOf decls)) key
  obtain ⟨b, hb, same⟩ := built.exists_class (finds.mem_irisOf_iff.mpr known)
  rw [← same] at finds
  have found := (get?_eq_some_iff made).mpr ⟨hb, finds⟩
  refine ⟨b, hb, found, ?_⟩
  rcases named with rfl | aliased
  · exact .inr found
  · rcases finds.eq_or_finds (order.once _) (aliased.mem_arrange order) with same | again
    · exact .inl (built.unique b hb c hc same)
    · exact .inr ((get?_eq_some_iff made).mpr ⟨hb, again⟩)

end Registry

/-! ## Objects that were made -/

namespace Object

variable {c : NodeClass} {o changed : Object} {step : ObjectStep}

/-- An object of the class that has no type name of its own. -/
structure Untitled (c : NodeClass) (o : Object) : Prop where
  cls : o.cls = c
  observedType : o.observedType = none

theorem Untitled.changes (untitled : o.Untitled c) (changes : o.Changes step changed)
    (silent : ∀ type, step ≠ .setType type) : changed.Untitled c := by
  refine ⟨changes.cls.trans untitled.cls, ?_⟩
  cases changes with
  | nothing | slot | id | setExtension | deleteExtension => exact untitled.observedType
  | setType type => exact absurd rfl (silent type)
  | clearType => rfl

end Object

/-- An object that was made of the class that a key names, and whatever became of it by steps that
do not give it a type name. -/
inductive Registry.Creates (registry : Registry) (key : String) : Object → Prop where
  | create {o : Object} (made : registry.create key = .ok o) : Creates registry key o
  | step {o : Object} (before : Creates registry key o) (w : Workspace) (step : ObjectStep)
    (silent : ∀ type, step ≠ .setType type) {result : Answer × Object} {next : Nat}
    (ran : o.run w step w.nextHandle = some (result, next)) : Creates registry key result.2

theorem Registry.Creates.untitled {registry : Registry} {key : String} {o : Object} {c : NodeClass}
    (creates : registry.Creates key o) (found : registry.get? key = some c) : o.Untitled c := by
  induction creates with
  | create made =>
    obtain ⟨named, -, blank⟩ := Registry.create_eq_ok_iff.mp made
    exact ⟨Option.some.inj (named.symm.trans found), by rw [blank]; rfl⟩
  | step _ w step silent ran ih => exact ih.changes (.of_run ran) silent

/-! ## Objects that are read back -/

/-- Neither the identifier nor a property is written in the place of the type name. -/
structure Object.SparesType (o : Object) : Prop where
  id : o.id ≠ none → o.cls.idKey ≠ "@type"
  slots : ∀ p slot, (p, slot) ∈ o.properties → slot.isSet = true → p.key ≠ "@type"

theorem Object.SparesType.eq_typeIri {o : Object} (spares : o.SparesType) {type : String}
    (writes : o.Writes ("@type", .string type)) : type = o.typeIri := by
  generalize same : ("@type", Json.string type) = m at writes
  cases writes with
  | type =>
    cases same
    rfl
  | id there =>
    exact absurd (congrArg Prod.fst same).symm (spares.id (there ▸ Option.some_ne_none _))
  | slot _ there set => exact absurd (congrArg Prod.fst same).symm (spares.slots _ _ there set)
  | extension => cases congrArg Prod.snd same

namespace Decoder

variable {d : Decoder} {path : Path} {target : Option NodeClass} {b : NodeClass} {o : Object}

/-- An object with a registered type name is read by the class of that name or not at all. -/
theorem cls_of_decodeObject {members : List (String × Json)}
    (typed : ∀ type, Members.get? members "@type" = some (.string type) →
      d.registry.get? type = some b)
    (read : d.decodeObject path target (.object members) = .ok o) : o.cls = b := by
  cases readsObject_of_decodeObject read with
  | only given only read =>
    have chosen : Registry.Chosen d.registry False target _ _ := chosen_of_only only
    rw [(typed_of_decodeMembers read).1, chosen.eq_of_settles (.inl (typed _ given))]
  | searched given first among =>
    obtain ⟨unknown, -⟩ := found_of_firstOf first among
    cases unknown.symm.trans (typed _ given)

end Decoder

namespace Registry

/-- In whatever order compact names are entered, a class is found by its IRI exactly if that is not
shadowed. By its type name is found, in every order, the class that the name was last given to, if
its IRI is not shadowed; in any case that class or the one that is found by its IRI. What is made of
the class and written is never read back as an object of a class other than the one that is found by
its type name. -/
theorem get?_typeName_and_rereads {contextUrl : String} {decls : List ClassDecl}
    {order : AliasOrder} {registry : Registry} {c : NodeClass}
    (made : build contextUrl decls order = .ok registry) (hc : c ∈ registry.classes) :
    (AlwaysFinds contextUrl decls c.iri c ↔ Unshadowed decls c.iri) ∧
    ∃ x ∈ registry.classes, (∀ token, c.compact = some token → Aliased decls token x.iri) ∧
      (x = c ↔ OwnsName decls c) ∧
      (AlwaysFinds contextUrl decls c.typeName x ↔ Unshadowed decls x.iri) ∧
      ∃ b ∈ registry.classes, registry.get? c.typeName = some b ∧
        (b = x ∨ registry.get? x.iri = some b) ∧
        ∀ key o, registry.get? key = some c → registry.Creates key o → o.SparesType →
          ∀ seen maxDepth path target o',
            (Decoder.mk registry maxDepth).decodeObject path target (.object (o.encode seen).1) =
              .ok o' → o'.cls = b := by
  obtain ⟨built, -⟩ := build_spec made
  obtain ⟨x, hx, named, aliased, owns⟩ := built.exists_typeName hc
  obtain ⟨b, hb, found, among⟩ := exists_get?_of_named made hx named
  refine ⟨alwaysFinds_iff made hc (.inl rfl), x, hx, aliased, owns,
    alwaysFinds_iff made hx named, b, hb, found, among, ?_⟩
  intro key o named creates spares seen maxDepth path target o' read
  obtain ⟨rfl, untitled⟩ := creates.untitled named
  refine Decoder.cls_of_decodeObject (fun type given => ?_) read
  have writes := Object.writes_of_mem_encode (Members.mem_of_get? given)
  rw [spares.eq_typeIri writes, Object.typeIri, untitled]
  exact found

end Registry

namespace Sample

/-- A cat, and a dog that is called by the same name. -/
def cat : ClassDecl where
  iri := "ex:Cat"
  compact := some "Pet"
  nodeKind := none
  idAlias := none
  isAbstract := false
  extensible := none
  parents := []
  properties := []

def dog : ClassDecl := { cat with iri := "ex:Dog" }

/-- A collar, of which a property is written in the place of its type name. -/
def collar : ClassDecl :=
  { cat with
    iri := "ex:Collar"
    compact := none
    properties := [⟨"worn", "ex:worn", some "@type", .scalar .string, false, none, none, [], []⟩] }

def petRegistry : Registry :=
  (Registry.build "" [cat, dog, collar]).toOption.getD ⟨"", [], []⟩

end Sample

/-- A cat that is written is read as a dog, and so is a collar that a dog has worn. -/
theorem Sample.cat_readAsDog : ∃ cat dog collar,
    Registry.build "" [Sample.cat, Sample.dog, Sample.collar] = .ok Sample.petRegistry ∧
      Sample.petRegistry.classes = [cat, dog, collar] ∧ cat ≠ dog ∧ collar ≠ dog ∧
        Sample.petRegistry.get? cat.typeName = some dog ∧
          (∃ o o', Sample.petRegistry.Creates "ex:Cat" o ∧ o.cls = cat ∧
            (Decoder.mk Sample.petRegistry 5).decodeObject .root none o.toJson = .ok o' ∧
              o'.cls = dog) ∧
            ∃ o o', Sample.petRegistry.Creates "ex:Collar" o ∧ o.cls = collar ∧
              (Decoder.mk Sample.petRegistry 5).decodeObject .root none o.toJson = .ok o' ∧
                o'.cls = dog := by
  have worn : Sample.petRegistry.Creates "ex:Collar" _ :=
    .step (.create rfl) (.empty Sample.petRegistry) (.set "worn" (.scalar (.string "ex:Dog")))
      nofun (Option.some_get rfl).symm
  exact ⟨_, _, _, rfl, rfl, by decide, by decide, rfl, ⟨_, _, .create rfl, rfl, rfl, rfl⟩,
    _, _, worn, rfl, rfl, rfl⟩

/-- The dog has the name, in whatever order names are entered, and is read as a dog again after it
was given an identifier. -/
theorem Sample.dog_readAsDog : ∃ dog o o', dog ∈ Sample.petRegistry.classes ∧
    Registry.AlwaysFinds "" [Sample.cat, Sample.dog, Sample.collar] "ex:Dog" dog ∧
      Registry.AlwaysFinds "" [Sample.cat, Sample.dog, Sample.collar] "Pet" dog ∧
        Sample.petRegistry.Creates "ex:Dog" o ∧ o.id = some "ex:rex" ∧
          (Decoder.mk Sample.petRegistry 5).decodeObject .root none o.toJson = .ok o' ∧
            o'.cls = dog := by
  obtain ⟨dog, hc, iri, compact⟩ : ∃ dog ∈ Sample.petRegistry.classes,
      dog.iri = "ex:Dog" ∧ dog.compact = some "Pet" := ⟨_, .tail _ (.head _), rfl, rfl⟩
  have built : Registry.build "" [Sample.cat, Sample.dog, Sample.collar] =
      .ok Sample.petRegistry := rfl
  have unshadowed : Registry.Unshadowed [Sample.cat, Sample.dog, Sample.collar] dog.iri := by
    rw [iri]
    exact Registry.unshadowed_of_unnamed (by decide)
  have owns : Registry.OwnsName [Sample.cat, Sample.dog, Sample.collar] dog := by
    intro token named
    cases compact.symm.trans named
    exact ⟨[Sample.cat], Sample.dog, [Sample.collar], rfl, rfl, iri.symm, by decide⟩
  have type : dog.typeName = "Pet" := by rw [NodeClass.typeName, compact, Option.getD_some]
  obtain ⟨itself, x, -, -, same, always, b, -, found, -, rereads⟩ :=
    Registry.get?_typeName_and_rereads built hc
  obtain rfl := same.mpr owns
  replace itself := itself.mpr unshadowed
  replace always := always.mpr unshadowed
  obtain rfl := Option.some.inj (found.symm.trans (always _ _ built))
  rw [iri] at itself
  rw [type] at always
  obtain ⟨o, o', creates, id, spares, read⟩ : ∃ o o', Sample.petRegistry.Creates "ex:Dog" o ∧
      o.id = some "ex:rex" ∧ o.SparesType ∧
        (Decoder.mk Sample.petRegistry 5).decodeObject .root none o.toJson = .ok o' :=
    ⟨_, _, .step (.create rfl) (.empty Sample.petRegistry) (.setId "ex:rex") nofun
      (Option.some_get rfl).symm, rfl, ⟨by decide, nofun⟩, rfl⟩
  have cls := rereads "ex:Dog" o (itself _ _ built) creates spares [] 5 .root none o' read
  exact ⟨b, o, o', hc, itself, always, creates, id, read, cls⟩

end ShapedGraph

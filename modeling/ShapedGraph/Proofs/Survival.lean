import ShapedGraph.Field
import ShapedGraph.Proofs.Layout
import ShapedGraph.Proofs.Scalar

/-! What a property of IRIs accepts and what survives of it in a document. The property asks of a
text only the constraints that are declared for it, and not that it identifies a node. When the text
is written and read again, it must identify a node, and a text that is the token of some other IRI
is read as that one. -/

namespace ShapedGraph

/-! ## What is read -/

namespace Context

variable {context : Context} {text : String}

/-- The text stands for itself: if it is a token, it is also an IRI that has one. -/
def Spares (context : Context) (text : String) : Prop :=
  ∀ pair ∈ context.pairs, pair.token = text → ∃ own ∈ context.pairs, own.iri = text

/-- A text without a token of its own that is the token of an IRI is taken for that IRI. -/
theorem expand_compact_of_token (distinct : context.TokensDistinct) {pair : Abbreviation}
    (there : pair ∈ context.pairs) (other : ∀ own ∈ context.pairs, own.iri ≠ pair.token) :
    context.expand (context.compact pair.token) = pair.iri := by
  rw [compact_of_not_mem other, expand_token distinct there]

/-- A text is written and read as itself if and only if it stands for itself. -/
theorem expand_compact_iff (distinct : context.TokensDistinct) :
    context.expand (context.compact text) = text ↔ context.Spares text := by
  by_cases paired : ∃ own ∈ context.pairs, own.iri = text
  · obtain ⟨own, there, rfl⟩ := paired
    exact iff_of_true (expand_compact_of_mem distinct there) fun _ _ _ => ⟨own, there, rfl⟩
  have unpaired : ∀ own ∈ context.pairs, own.iri ≠ text := fun own there same =>
    paired ⟨own, there, same⟩
  constructor
  · rintro again pair there rfl
    rw [expand_compact_of_token distinct there unpaired] at again
    exact ⟨pair, there, again⟩
  · intro spares
    rw [compact_of_not_mem unpaired]
    exact expand_of_not_mem fun pair there same => paired (spares pair there same)

end Context

/-! ## What is accepted -/

/-- A text meets a constraint: the pattern is found in it, or it is one of those allowed. -/
inductive Constraint.Allows (text : String) : Constraint → Prop where
  | pattern {source : String} {expected : Pattern}
    (read : Pattern.compile? source = some expected) (found : expected.isFoundIn text = true) :
    Allows text (.pattern source)
  | oneOf {values : List String} (among : text ∈ values) : Allows text (.oneOf values)

namespace Property

theorem reason?_eq_none_iff {decl : PropertyDecl} {constraint : Constraint} {v : Validator}
    (kind : decl.kind = .scalar .iri) (made : validator decl constraint = .ok v) (text : String) :
    v.reason? (.string text) = none ↔ constraint.Allows text := by
  obtain ⟨name, iri, compact, _, isList, minCount, maxCount, abbreviations, constraints⟩ := decl
  cases kind
  cases constraint with
  | minimum | maximum => cases made
  | pattern source =>
    cases read : Pattern.compile? source with
    | none => simp [validator, read] at made
    | some expected =>
      have same : v = .pattern expected := by simpa [validator, read, eq_comm] using made
      rw [same, Validator.reason?]
      constructor
      · intro passes
        split at passes
        · exact .pattern read (by assumption)
        · cases passes
      · rintro (⟨read', found⟩ | _)
        cases read.symm.trans read'
        exact if_pos found
  | oneOf values =>
    cases made
    rw [Validator.reason?]
    constructor
    · intro passes
      exact .oneOf (by simpa using passes)
    · rintro (_ | among)
      exact if_pos (List.contains_iff_mem.mpr (by assumption))

variable {owner : String} {position : Nat} {decl : PropertyDecl} {p : Property}

theorem chain_of_compile (compiled : compile owner position decl = .ok p) :
    p.constraints.mapM (validator p.toPropertyDecl) = .ok p.chain := by
  obtain ⟨chain, made, same⟩ := Outcome.bind_eq_ok.mp compiled
  cases same
  exact made

/-- A property of IRIs asks of a text that it meets the constraints, and nothing else. -/
theorem firstError_eq_none_iff (compiled : compile owner position decl = .ok p)
    (kind : p.kind = .scalar .iri) (text : String) :
    Validator.firstError p.chain p.name (.string text) = none ↔
      ∀ constraint ∈ p.constraints, constraint.Allows text := by
  have passes : Validator.firstError p.chain p.name (.string text) = none ↔
      ∀ v ∈ p.chain, v.reason? (.string text) = none := by
    simp [Validator.firstError, Validator.check]
  rw [passes, Outcome.forall_mem_of_mapM (chain_of_compile compiled)]
  refine forall₂_congr fun constraint there => ⟨?_, fun allows => ?_⟩
  · rintro ⟨v, made, passes⟩
    exact (reason?_eq_none_iff kind made text).mp passes
  · obtain ⟨v, made⟩ := Outcome.exists_mapM_iff.mp ⟨_, chain_of_compile compiled⟩ constraint there
    exact ⟨v, made, (reason?_eq_none_iff kind made text).mpr allows⟩

end Property

theorem Field.exists_set_iff {field : Field} {value : Scalar} :
    (∃ changed, field.set value = .ok changed) ↔
      Validator.firstError field.chain field.name value = none := by
  rw [Field.set]
  cases Validator.firstError field.chain field.name value <;> simp

theorem ListField.exists_push_iff {field : ListField} {value : Scalar} :
    (∃ changed, field.push value = .ok changed) ↔
      Validator.firstError field.chain field.name value = none := by
  rw [ListField.push]
  cases Validator.firstError field.chain field.name value <;> simp

theorem ListField.exists_set_iff {field : ListField} {values : List Scalar} :
    (∃ changed, field.set values = .ok changed) ↔
      ∀ value ∈ values, Validator.firstError field.chain field.name value = none := by
  have stops : Validator.firstErrorIn field.chain field.name values = none ↔
      ∀ value ∈ values, Validator.firstError field.chain field.name value = none := by
    simp [Validator.firstErrorIn]
  rw [ListField.set, ← stops]
  cases Validator.firstErrorIn field.chain field.name values <;> simp

/-! ## What survives -/

/-- A property of IRIs accepts the texts that meet its constraints. Such a text is written and read
as itself if and only if it identifies a node and is not the token of another IRI. Otherwise it is
read as that IRI, or not at all. -/
theorem Registry.decodeIri_encode_iff {contextUrl : String} {decls : List ClassDecl}
    {order : AliasOrder} {registry : Registry} {c : NodeClass} {p : Property}
    (made : build contextUrl decls order = .ok registry) (hc : c ∈ registry.classes)
    (hp : p ∈ c.layout) (kind : p.kind = .scalar .iri) (distinct : p.context.TokensDistinct) :
    (∀ held text, (∃ changed, (p.field held).set (.string text) = .ok changed) ↔
      ∀ constraint ∈ p.constraints, constraint.Allows text) ∧
    (∀ held text, (∃ changed, (p.listField held).push (.string text) = .ok changed) ↔
      ∀ constraint ∈ p.constraints, constraint.Allows text) ∧
    (∀ held (texts : List String),
      (∃ changed, (p.listField held).set (texts.map .string) = .ok changed) ↔
        ∀ text ∈ texts, ∀ constraint ∈ p.constraints, constraint.Allows text) ∧
    ∀ text path,
      (Scalar.decodeIri p.context path (ScalarKind.iri.encode p.context (.string text)) =
        .ok text ↔ isIdentifier text = true ∧ p.context.Spares text) ∧
      (isIdentifier text = false → p.context.Spares text →
        Scalar.decodeIri p.context path (ScalarKind.iri.encode p.context (.string text)) =
          failAt path (.notIdentifier text)) ∧
      ∀ pair ∈ p.context.pairs, pair.token = text → (∀ own ∈ p.context.pairs, own.iri ≠ text) →
        Scalar.decodeIri p.context path (ScalarKind.iri.encode p.context (.string text)) =
          if isIdentifier pair.iri then .ok pair.iri
          else failAt path (.notIdentifier pair.iri) := by
  obtain ⟨built, -⟩ := build_spec made
  obtain ⟨decl, position, -, said, -, compiled⟩ :=
    ((built.resolved c hc).mem_layout_iff.mp hp).1
  have asks := Property.firstError_eq_none_iff compiled kind
  refine ⟨fun held text => Field.exists_set_iff.trans (asks text),
    fun held text => ListField.exists_push_iff.trans (asks text), fun held texts => ?_,
    fun text path => ?_⟩
  · rw [ListField.exists_set_iff, List.forall_mem_map]
    exact forall₂_congr fun text _ => asks text
  have read : ∀ iri, p.context.expand (p.context.compact text) = iri →
      Scalar.decodeIri p.context path (ScalarKind.iri.encode p.context (.string text)) =
        if isIdentifier iri then .ok iri else failAt path (.notIdentifier iri) := by
    rintro _ rfl
    rfl
  refine ⟨?_, fun unshaped spares => ?_, ?_⟩
  · have written : ScalarKind.iri.encode p.context (.string text) =
        .string (p.context.compact text) := rfl
    rw [written, Scalar.decodeIri_eq_ok, ← Context.expand_compact_iff distinct]
    constructor
    · rintro ⟨_, same, again, shaped⟩
      cases same
      exact ⟨shaped, again⟩
    · rintro ⟨shaped, again⟩
      exact ⟨_, rfl, again, shaped⟩
  · rw [read text ((Context.expand_compact_iff distinct).mpr spares), unshaped]
    rfl
  · rintro pair there rfl other
    exact read pair.iri (Context.expand_compact_of_token distinct there other)

namespace Sample

/-- A bookmark leads to a page, of which one has a short name. -/
def bookmark : ClassDecl where
  iri := "ex:Bookmark"
  compact := some "Bookmark"
  nodeKind := none
  idAlias := none
  isAbstract := false
  extensible := none
  parents := []
  properties := [⟨"link", "ex:link", some "link", .scalar .iri, false, none, none,
    [⟨"ex:home", "home"⟩], []⟩]

def bookmarkRegistry : Registry := (Registry.build "" [bookmark]).toOption.getD ⟨"", [], []⟩

end Sample

/-- Some texts that a bookmark accepts are not read again, or as another text. -/
theorem Sample.links_lost : ∃ c p, Registry.build "" [Sample.bookmark] =
      .ok Sample.bookmarkRegistry ∧ c ∈ Sample.bookmarkRegistry.classes ∧ p ∈ c.layout ∧
    p.kind = .scalar .iri ∧
      (∀ a ∈ p.context.pairs, ∀ b ∈ p.context.pairs, a.token = b.token ∨ a.iri = b.iri → a = b) ∧
        (p.field none).set (.string "plain") = .ok (p.field (some (.string "plain"))) ∧
          Scalar.decodeIri p.context .root (ScalarKind.iri.encode p.context (.string "plain")) =
            failAt .root (.notIdentifier "plain") ∧
              (p.field none).set (.string "home") = .ok (p.field (some (.string "home"))) ∧
                Scalar.decodeIri p.context .root
                  (ScalarKind.iri.encode p.context (.string "home")) = .ok "ex:home" :=
  ⟨_, _, rfl, .head _, .head _, rfl, by decide, rfl, rfl, rfl, rfl⟩

/-- An identifier is accepted and read again, also one that is written in short. -/
theorem Sample.links_kept : ∃ c p, Registry.build "" [Sample.bookmark] =
      .ok Sample.bookmarkRegistry ∧ c ∈ Sample.bookmarkRegistry.classes ∧ p ∈ c.layout ∧
    ∀ text ∈ ["ex:a", "ex:home"], (∃ changed, (p.field none).set (.string text) = .ok changed) ∧
      Scalar.decodeIri p.context .root (ScalarKind.iri.encode p.context (.string text)) =
        .ok text := by
  obtain ⟨c, p, made, hc, hp, kind, free, pairs⟩ : ∃ c p,
      Registry.build "" [Sample.bookmark] = .ok Sample.bookmarkRegistry ∧
        c ∈ Sample.bookmarkRegistry.classes ∧ p ∈ c.layout ∧ p.kind = .scalar .iri ∧
          p.constraints = [] ∧ p.context = ⟨[⟨"ex:home", "home"⟩]⟩ :=
    ⟨_, _, rfl, .head _, .head _, rfl, rfl, rfl⟩
  have distinct : p.context.TokensDistinct := by
    rw [pairs, Context.TokensDistinct]
    decide
  obtain ⟨accepts, -, -, survives⟩ := Registry.decodeIri_encode_iff made hc hp kind distinct
  refine ⟨c, p, made, hc, hp, fun text among => ⟨(accepts none text).mpr ?_, ?_⟩⟩
  · rw [free]
    exact fun _ there => absurd there List.not_mem_nil
  · refine (survives text .root).1.mpr ?_
    have shaped : ∀ text ∈ ["ex:a", "ex:home"], isIdentifier text = true ∧ text ≠ "home" := by
      decide
    refine ⟨(shaped text among).1, fun pair there same => absurd ?_ (shaped text among).2⟩
    rw [pairs] at there
    rw [← same, List.mem_singleton.mp there]

end ShapedGraph

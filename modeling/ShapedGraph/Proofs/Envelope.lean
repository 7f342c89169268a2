import ShapedGraph.Proofs.Coverage
import ShapedGraph.Proofs.Encoding

/-! The envelope of a document that a graph is written as: the context of the model and, around
several roots, their list. The members of a lone root stand beside those of the envelope and replace
them, so the envelope depends on what was read into a lone root. -/

namespace ShapedGraph

def envelopeKeys : List String := ["@context", "@graph"]

/-- The members of a document with a context and so many roots, which are listed if there are
several. -/
structure Envelope (contextUrl : String) (size : Nat) (members : Members Json) : Prop where
  context : Members.get? members "@context" = some (.string contextUrl)
  listed : 2 ≤ size → ∃ items, Members.get? members "@graph" = some (.list items) ∧
    items.length = size
  unlisted : size < 2 → Members.get? members "@graph" = none

/-- The members of a lone root do not replace those of the envelope by others. -/
def SpareEnvelope (contextUrl : String) (members : Members Json) : Prop :=
  Members.get? members "@graph" = none ∧
    ∀ json, Members.get? members "@context" = some json → json = .string contextUrl

theorem envelope_union_iff {contextUrl : String} {members : Members Json}
    (sorted : members.Sorted) :
    Envelope contextUrl 1 (Members.union [("@context", .string contextUrl)] members) ↔
      SpareEnvelope contextUrl members := by
  let table : Members Json := [("@context", .string contextUrl)]
  have context : Members.get? (Members.union table members) "@context" = _ :=
    Members.get?_union sorted "@context"
  have list : Members.get? (Members.union table members) "@graph" = _ :=
    Members.get?_union sorted "@graph"
  rw [Members.get?_cons, if_pos rfl] at context
  rw [Members.get?_cons, if_neg (by decide), Members.get?_nil, Option.or_none] at list
  constructor
  · intro envelope
    refine ⟨list.symm.trans (envelope.unlisted (by decide)), fun json found => ?_⟩
    have same := context.symm.trans envelope.context
    rw [found] at same
    exact Option.some.inj same
  · rintro ⟨unlisted, same⟩
    refine ⟨?_, fun several => absurd several (by decide), fun _ => list.trans unlisted⟩
    rw [context]
    cases found : Members.get? members "@context" with
    | none => rfl
    | some json =>
      rw [same json found]
      rfl

namespace Graph

/-- The graph is written with the envelope of its model and its roots. -/
def HasEnvelope (graph : Graph) : Prop :=
  ∃ members, graph.toJson = .object members ∧
    Envelope graph.registry.contextUrl graph.size members

/-- A graph that documents were read into, one after the other. -/
inductive Reads (registry : Registry) : List Json → Graph → Prop where
  | empty : Reads registry [] (Graph.empty registry)
  | next {documents : List Json} {graph more : Graph} {maxDepth : Nat} {document : Json}
    (before : Reads registry documents graph) (read : graph.decode maxDepth document = .ok more) :
    Reads registry (documents ++ [document]) more

variable {registry : Registry} {documents : List Json} {graph : Graph}

/-! ## Writing roots into an envelope -/

theorem length_encodeRoots (roots : List Root) (seen : Seen) :
    (encodeRoots roots seen).length = roots.length := by
  induction roots generalizing seen with
  | nil => rfl
  | cons root roots ih =>
    rw [encodeRoots, List.length_cons, List.length_cons, ih]

theorem mem_encodeRoots {roots : List Root} {seen : Seen} {members : Members Json}
    (h : members ∈ encodeRoots roots seen) :
    ∃ root ∈ roots, ∃ seen', members = (root.object.encode seen').1 := by
  induction roots generalizing seen with
  | nil => cases h
  | cons root roots ih =>
    rw [encodeRoots] at h
    rcases List.mem_cons.mp h with rfl | h
    · exact ⟨root, List.mem_cons_self, seen, rfl⟩
    · obtain ⟨other, among, seen', same⟩ := ih h
      exact ⟨other, List.mem_cons_of_mem _ among, seen', same⟩

theorem hasEnvelope_of_several (several : 2 ≤ graph.size) : graph.HasEnvelope := by
  obtain ⟨registry, roots⟩ := graph
  match roots with
  | [] => cases several
  | [_] => exact absurd several (by simp [size])
  | first :: second :: rest =>
    let written := encodeRoots (first :: second :: rest)
      ((first :: second :: rest).filterMap (·.handle))
    have length : written.length = rest.length + 2 := length_encodeRoots _ _
    refine ⟨_, rfl, ?_, fun _ => ⟨written.map .object, ?_, ?_⟩, fun few => ?_⟩
    · rw [Members.get?_insert, if_neg (by decide)]
      rfl
    · rw [Members.get?_insert, if_pos rfl]
      rfl
    · rw [List.length_map, length]
      rfl
    · exact absurd several (Nat.not_le.mpr few)

/-- Only a lone root can spoil the envelope. -/
theorem hasEnvelope_iff : graph.HasEnvelope ↔ ∀ root, graph.roots = [root] →
    SpareEnvelope graph.registry.contextUrl (root.object.encode root.handle.toList).1 := by
  obtain ⟨registry, roots⟩ := graph
  match roots with
  | [] =>
    have envelope : Envelope registry.contextUrl 0 [("@context", .string registry.contextUrl)] :=
      ⟨rfl, nofun, fun _ => rfl⟩
    exact ⟨fun _ _ => nofun, fun _ => ⟨_, rfl, envelope⟩⟩
  | first :: second :: rest =>
    exact ⟨fun _ _ => nofun, fun _ => hasEnvelope_of_several (Nat.le_add_left 2 _)⟩
  | [root] =>
    -- The members of the root are put in after those of the envelope.
    have seen : [root].filterMap (·.handle) = root.handle.toList := by
      cases h : root.handle <;> simp [h]
    have written : (Graph.mk registry [root]).toJson = .object
        (Members.union [("@context", .string registry.contextUrl)]
          (root.object.encode root.handle.toList).1) := by
      rw [← seen]
      rfl
    have alone : Envelope registry.contextUrl 1 _ ↔ _ :=
      envelope_union_iff (root.object.sorted_encode root.handle.toList)
    constructor
    · rintro ⟨members, written', envelope⟩ root' same
      cases List.singleton_inj.mp same
      cases written.symm.trans written'
      exact alone.mp envelope
    · intro spares
      exact ⟨_, written, alone.mpr (spares root rfl)⟩

end Graph

/-! ## What a lone root was read from -/

/-- An undeclared member with this key holds some value. -/
def Object.Gives (key : String) (o : Object) : Prop :=
  ∃ values, (key, values) ∈ o.extensions ∧ values ≠ []

/-- The JSON object has a member with this key that is not an empty list. -/
def Json.Gives (key : String) : Json → Prop
  | .object members => ∃ value, (key, value) ∈ members ∧ value ≠ .list []
  | _ => False

/-- Objects of the class have no member of their own with a key of envelopes. -/
def NodeClass.SparesEnvelope (c : NodeClass) : Prop :=
  ∀ key ∈ envelopeKeys, c.idAlias ≠ some key ∧ ∀ p ∈ c.layout, key ∉ p.keys

instance (c : NodeClass) : Decidable c.SparesEnvelope :=
  inferInstanceAs (Decidable (∀ key ∈ envelopeKeys,
    c.idAlias ≠ some key ∧ ∀ p ∈ c.layout, key ∉ p.keys))

section

variable {o : Object} {key : String} {seen : Seen}

theorem NodeClass.SparesEnvelope.unreserved {c : NodeClass} (spares : c.SparesEnvelope)
    (envelope : key ∈ envelopeKeys) : c.Unreserved key := by
  have notId : key ≠ "@id" := by
    rintro rfl
    exact absurd envelope (by decide)
  refine ⟨?_, ?_, notId⟩
  · rintro rfl
    exact absurd envelope (by decide)
  · rw [NodeClass.idKey]
    cases h : c.idAlias with
    | none => exact notId
    | some other => exact fun same => (spares key envelope).1 (h.trans (congrArg some same.symm))

/-- A member with a key of envelopes is written only if it is undeclared. -/
theorem Object.Writes.extension_of_envelope (spares : o.cls.SparesEnvelope)
    (envelope : key ∈ envelopeKeys) {json : Json} (writes : o.Writes (key, json)) :
    o.Gives key ∧ ∃ items, json = .list items := by
  obtain ⟨notType, notIdKey, -⟩ := spares.unreserved envelope
  cases writes with
  | type => exact absurd rfl notType
  | id => exact absurd rfl notIdKey
  | slot _ there =>
    have among := (List.of_mem_zip there).1
    exact absurd (PropertyDecl.key_mem_keys _) ((spares _ envelope).2 _ among)
  | extension _ there nonempty => exact ⟨⟨_, there, nonempty⟩, _, rfl⟩

/-- An object that gives no member with a key of envelopes is written without one. -/
theorem Object.get?_encode_eq_none (spares : o.cls.SparesEnvelope) (envelope : key ∈ envelopeKeys)
    (silent : ¬o.Gives key) : Members.get? (o.encode seen).1 key = none := by
  refine Option.eq_none_iff_forall_ne_some.mpr fun json found => silent ?_
  have writes := writes_of_mem_encode (Members.mem_of_get? found)
  exact (writes.extension_of_envelope spares envelope).1

theorem Object.spareEnvelope_iff (spares : o.cls.SparesEnvelope) (contextUrl : String) :
    SpareEnvelope contextUrl (o.encode seen).1 ↔ ∀ key ∈ envelopeKeys, ¬o.Gives key := by
  constructor
  · rintro ⟨unlisted, context⟩ key envelope ⟨values, there, nonempty⟩
    obtain ⟨json, found⟩ := (hasKey_encode (.extension seen there nonempty) seen).get?
    have writes := writes_of_mem_encode (Members.mem_of_get? found)
    obtain ⟨-, items, rfl⟩ := writes.extension_of_envelope spares envelope
    rcases List.mem_cons.mp envelope with rfl | envelope
    · cases context _ found
    · cases List.mem_singleton.mp envelope
      cases unlisted.symm.trans found
  · intro silent
    have absent : ∀ key ∈ envelopeKeys, Members.get? (o.encode seen).1 key = none :=
      fun key envelope => get?_encode_eq_none spares envelope (silent key envelope)
    refine ⟨absent _ (.tail _ (.head _)), fun json found => ?_⟩
    cases (absent _ (.head _)).symm.trans found

end

namespace Decoder

variable {d : Decoder} {path : Path} {json : Json} {target : Option NodeClass} {o : Object}
  {key : String}

theorem readExtensions_eq_nil_iff {values : List Extension}
    (read : d.readExtensions path json = .ok values) : values = [] ↔ json = .list [] := by
  cases json with
  | list items =>
    cases items with
    | nil =>
      cases read
      exact ⟨fun _ => rfl, fun _ => rfl⟩
    | cons item items =>
      obtain ⟨value, -, read⟩ := Outcome.bind_eq_ok.mp read
      obtain ⟨rest, -, read⟩ := Outcome.bind_eq_ok.mp read
      cases read
      exact ⟨nofun, nofun⟩
  | _ =>
    obtain ⟨value, -, rfl⟩ := Outcome.map_eq_ok.mp read
    exact ⟨nofun, nofun⟩

/-- An undeclared member with a key of envelopes comes from a member of the JSON object. -/
theorem gives_iff (ordered : json.Ordered) (read : d.decodeObject path target json = .ok o)
    (spares : o.cls.SparesEnvelope) (envelope : key ∈ envelopeKeys) :
    o.Gives key ↔ json.Gives key := by
  cases ordered with
  | object sorted _ =>
    rename_i members _
    have free := spares.unreserved envelope
    have extensions := sorted_extensions_of_decodeObject read
    constructor
    · rintro ⟨values, there, nonempty⟩
      obtain ⟨-, value, found, reads⟩ :=
        (get?_extensions_eq_some_iff sorted read).mp (Members.get?_of_mem extensions there)
      exact ⟨value, Members.mem_of_get? found,
        fun empty => nonempty ((readExtensions_eq_nil_iff reads).mpr empty)⟩
    · rintro ⟨value, there, nonempty⟩
      obtain ⟨type, cls, -, each⟩ := exists_class_of_decodeObject read
      obtain ⟨rfl, -⟩ := typed_of_decodeMembers each
      obtain ⟨parts, each, -⟩ := (decodeMembers_eq_ok (Object.shaped_ofType _ type)).mp each
      obtain ⟨part, here⟩ := Outcome.exists_map_ok_iff.mp ⟨parts, each⟩ _ there
      -- The key has no other role, so its member was read to values.
      cases readMember_eq_ok.mp here with
      | type role => exact absurd (NodeClass.Means.of_memberRole role) free.1
      | id role => exact absurd (NodeClass.Means.of_memberRole role).1 free.2.1
      | slot role _ _ =>
        obtain ⟨-, p, stands⟩ := NodeClass.memberRole_eq_declared_iff.mp role
        have own := (spares key envelope).2 p (List.mem_of_getElem? stands.there)
        exact absurd stands.written own
      | extension role reads =>
        have found := (get?_extensions_eq_some_iff sorted read).mpr
          ⟨role, value, Members.get?_of_mem sorted there, reads⟩
        exact ⟨_, Members.mem_of_get? found,
          fun empty => nonempty ((readExtensions_eq_nil_iff reads).mp empty)⟩
  | _ => cases readsObject_of_decodeObject read

end Decoder

/-! ## Graphs that documents were read into -/

theorem Json.ordered_rootObjects {document : Json} (ordered : document.Ordered) :
    ∀ json ∈ document.rootObjects, json.Ordered := by
  cases ordered with
  | @object members sorted each =>
    cases listed : Members.get? members "@graph" with
    | none =>
      simp only [rootObjects, listed, List.forall_mem_singleton]
      exact Ordered.erase (.object sorted each) _
    | some graph =>
      have inner : graph.Ordered := each _ (Members.mem_of_get? listed)
      simp only [rootObjects, listed]
      cases inner with
      | list each => exact each
      | _ => exact nofun
  | _ => exact nofun

namespace Graph

variable {registry : Registry} {documents : List Json} {graph : Graph}

/-- A root that was read from a JSON object. -/
def Rooted (registry : Registry) (root : Root) (json : Json) : Prop :=
  root.handle = none ∧ ∃ maxDepth path,
    (Decoder.mk registry maxDepth).decodeObject path none json = .ok root.object

/-- Each root was read from the JSON object in its place among those of the documents. -/
theorem Reads.forall₂ (reads : Reads registry documents graph) : graph.registry = registry ∧
    List.Forall₂ (Rooted registry) graph.roots (documents.flatMap Json.rootObjects) := by
  induction reads with
  | empty => exact ⟨rfl, .nil⟩
  | next before read ih =>
    obtain ⟨rfl, each⟩ := ih
    obtain ⟨roots, decoded, rfl⟩ := Outcome.map_eq_ok.mp read
    refine ⟨rfl, ?_⟩
    rw [List.flatMap_append, List.flatMap_singleton]
    refine List.rel_append each (List.forall₂_map_left_iff.mpr ?_)
    refine (Decoder.forall₂_of_decodeRoots decoded).imp fun o json found => ?_
    obtain ⟨path, read⟩ := found
    exact ⟨rfl, _, path, read⟩

theorem Reads.rooted_of_lone (reads : Reads registry documents graph) {root : Root}
    (lone : graph.roots = [root]) :
    ∃ json, documents.flatMap Json.rootObjects = [json] ∧ Rooted registry root json := by
  have each := reads.forall₂.2
  rw [lone] at each
  obtain ⟨json, rest, rooted, none, objects⟩ := List.forall₂_cons_left_iff.mp each
  rw [List.forall₂_nil_left_iff.mp none] at objects
  exact ⟨json, objects, rooted⟩

theorem Reads.exists_lone (reads : Reads registry documents graph) {json : Json}
    (objects : documents.flatMap Json.rootObjects = [json]) :
    ∃ root, graph.roots = [root] ∧ Rooted registry root json := by
  have each := reads.forall₂.2
  rw [objects] at each
  obtain ⟨root, rest, rooted, none, lone⟩ := List.forall₂_cons_right_iff.mp each
  rw [List.forall₂_nil_right_iff.mp none] at lone
  exact ⟨root, lone, rooted⟩

theorem Rooted.sound {root : Root} {json : Json} (rooted : Rooted registry root json)
    {unbounded : Prop} (bounded : unbounded ∨ json.Representable) :
    root.object.SoundThroughout registry True unbounded none := by
  obtain ⟨-, maxDepth, path, read⟩ := rooted
  have reads := Decoder.readsSoundly ⟨registry, maxDepth⟩ True unbounded json bounded
  exact reads.object path none _ nofun (.inl trivial) read

theorem Rooted.registered {root : Root} {json : Json} (rooted : Rooted registry root json) :
    root.object.cls ∈ registry.classes :=
  (rooted.sound (.inl trivial)).here.registered

theorem Rooted.spareEnvelope_iff {root : Root} {json : Json} (rooted : Rooted registry root json)
    (ordered : json.Ordered) (spares : ∀ c ∈ registry.classes, c.SparesEnvelope)
    (contextUrl : String) :
    SpareEnvelope contextUrl (root.object.encode root.handle.toList).1 ↔
      ∀ key ∈ envelopeKeys, ¬json.Gives key := by
  have own := spares _ rooted.registered
  obtain ⟨-, maxDepth, path, read⟩ := rooted
  rw [Object.spareEnvelope_iff own]
  refine forall₂_congr fun key envelope => ?_
  rw [Decoder.gives_iff ordered read own envelope]

/-- A graph that documents were read into is written with its envelope exactly if a lone root leaves
the members of the envelope alone. If no class has a member of its own with a key of envelopes, that
is so exactly if, of all objects that the documents have for roots, there is not just one, or that
one has no member with a key of envelopes, except for empty lists. -/
theorem hasEnvelope_iff_of_reads (reads : Reads registry documents graph)
    (ordered : ∀ document ∈ documents, document.Ordered) :
    (graph.HasEnvelope ↔ ∀ root members, graph.roots = [root] →
      root.object.toJson = .object members → SpareEnvelope registry.contextUrl members) ∧
    ((∀ c ∈ registry.classes, c.SparesEnvelope) → (graph.HasEnvelope ↔
      ∀ json, documents.flatMap Json.rootObjects = [json] →
        ∀ key ∈ envelopeKeys, ¬json.Gives key)) := by
  obtain ⟨rfl, -⟩ := reads.forall₂
  rw [hasEnvelope_iff]
  constructor
  · constructor
    · intro spares root members lone written
      obtain ⟨json, -, unshared, -⟩ := reads.rooted_of_lone lone
      have spare := spares root lone
      rw [unshared] at spare
      cases written
      exact spare
    · intro spares root lone
      obtain ⟨json, -, unshared, -⟩ := reads.rooted_of_lone lone
      rw [unshared]
      exact spares root _ lone rfl
  · intro own
    have inside : ∀ json ∈ documents.flatMap Json.rootObjects, json.Ordered := by
      intro json hj
      obtain ⟨document, hd, hj⟩ := List.mem_flatMap.mp hj
      exact Json.ordered_rootObjects (ordered document hd) json hj
    constructor
    · intro spares json objects
      obtain ⟨root, lone, rooted⟩ := reads.exists_lone objects
      have among : json.Ordered := inside json (objects ▸ List.mem_singleton_self json)
      exact (rooted.spareEnvelope_iff among own _).mp (spares root lone)
    · intro silent root lone
      obtain ⟨json, objects, rooted⟩ := reads.rooted_of_lone lone
      have among : json.Ordered := inside json (objects ▸ List.mem_singleton_self json)
      exact (rooted.spareEnvelope_iff among own _).mpr (silent json objects)

end Graph

namespace Sample

/-- A document that lists one page, which has a member with the key of contexts. -/
def contextPage : Json := .object
  [("@context", .string ""), ("@graph", .list [.object
    [("@context", .string "ex:other"), ("@type", .string "Page"), ("title", .string "one")]])]

/-- A document that lists one page, which has an empty member with the key of contexts. -/
def plainPage : Json := .object
  [("@context", .string ""), ("@graph", .list [.object
    [("@context", .list []), ("@type", .string "Page"), ("title", .string "one")]])]

end Sample

/-- A document that can be read is written with another context. -/
theorem Sample.contextPage_spoils : ∃ graph,
    Graph.Reads Sample.pageRegistry [Sample.contextPage] graph ∧ graph.toJson = .object
      [("@context", .list [.string "ex:other"]), ("@type", .string "Page"),
        ("title", .string "one")] ∧ ¬graph.HasEnvelope := by
  obtain ⟨graph, read, written⟩ : ∃ graph,
      (Graph.empty Sample.pageRegistry).decode 9 Sample.contextPage = .ok graph ∧
        graph.toJson = .object [("@context", .list [.string "ex:other"]),
          ("@type", .string "Page"), ("title", .string "one")] := ⟨_, rfl, rfl⟩
  refine ⟨graph, .next .empty read, written, ?_⟩
  rintro ⟨members, written', envelope⟩
  cases written.symm.trans written'
  cases envelope.context

theorem Sample.plainPage_enveloped : ∃ graph,
    Graph.Reads Sample.pageRegistry [Sample.plainPage] graph ∧ Sample.plainPage.Ordered ∧
      (∀ c ∈ Sample.pageRegistry.classes, c.SparesEnvelope) ∧ graph.HasEnvelope := by
  obtain ⟨graph, read⟩ : ∃ graph,
      (Graph.empty Sample.pageRegistry).decode 9 Sample.plainPage = .ok graph := ⟨_, rfl⟩
  have reads : Graph.Reads Sample.pageRegistry [Sample.plainPage] graph := .next .empty read
  have ordered : Sample.plainPage.Ordered := by
    refine .object (by decide) ?_
    simp only [List.forall_mem_cons]
    refine ⟨.string _, .list ?_, nofun⟩
    simp only [List.forall_mem_cons]
    refine ⟨.object (by decide) ?_, nofun⟩
    simp only [List.forall_mem_cons]
    exact ⟨.list nofun, .string _, .string _, nofun⟩
  have own : ∀ c ∈ Sample.pageRegistry.classes, c.SparesEnvelope := by decide
  obtain ⟨-, enveloped⟩ := Graph.hasEnvelope_iff_of_reads reads
    (List.forall_mem_singleton.mpr ordered)
  refine ⟨graph, reads, ordered, own, (enveloped own).mpr fun json objects key envelope => ?_⟩
  cases objects
  rintro ⟨value, there, nonempty⟩
  rcases List.mem_cons.mp there with same | there
  · cases same
    exact nonempty rfl
  · have others : ∀ m ∈ [("@type", Json.string "Page"), ("title", .string "one")],
        m.1 ∉ envelopeKeys := by decide
    exact others _ there envelope

end ShapedGraph

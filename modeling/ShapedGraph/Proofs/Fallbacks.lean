import ShapedGraph.Proofs.Deepening
import ShapedGraph.Proofs.Parsing

/-! What reading and writing fall back to, and never come to with what was read: the fault that a
slot does not fit its property, and the null that is written for what has no other form. Every slot
keeps the form that its property gives it, so whatever is read fits; and nothing that a document
says is kept without a form of its own. -/

namespace ShapedGraph

/-! ## Reading finds every slot as it should be -/

/-- Reading does not come upon a slot that does not fit its property. -/
abbrev Matched {α : Type} (x : Decoded α) : Prop :=
  Outcome.Avoids (fun e => e.fault = .slotMismatch) x

section

variable {path : Path} {context : Context}

namespace Scalar

theorem matched_decodeString (json : Json) : Matched (decodeString path json) := by
  unfold decodeString
  split <;> simp

theorem matched_decodeBoolean (json : Json) : Matched (decodeBoolean path json) := by
  unfold decodeBoolean
  split <;> simp

theorem matched_integerOfFloat (x : Binary64) : Matched (integerOfFloat path x) := by
  unfold integerOfFloat
  split <;> simp

theorem matched_decodeInteger (json : Json) : Matched (decodeInteger path json) := by
  unfold decodeInteger
  split
  · split
    · simp
    · exact matched_integerOfFloat _
  · exact matched_integerOfFloat _
  · simp

theorem matched_decodeFloat (json : Json) : Matched (decodeFloat path json) := by
  unfold decodeFloat
  split
  · simp
  · simp
  · split <;> simp
  · simp

theorem matched_decodeIri (json : Json) : Matched (decodeIri context path json) := by
  refine (matched_decodeString json).bind fun text _ => ?_
  dsimp only
  split <;> simp

theorem matched_decodeDateTime (required : Bool) (json : Json) :
    Matched (decodeDateTime required path json) := by
  refine (matched_decodeString json).bind fun text _ => ?_
  split <;> simp

end Scalar

theorem ScalarKind.matched_decode (kind : ScalarKind) (json : Json) :
    Matched (kind.decode context path json) := by
  cases kind with
  | string => exact (Scalar.matched_decodeString json).map
  | iri => exact (Scalar.matched_decodeIri json).map
  | boolean => exact (Scalar.matched_decodeBoolean json).map
  | integer => exact (Scalar.matched_decodeInteger json).map
  | float => exact (Scalar.matched_decodeFloat json).map
  | dateTime | dateTimeStamp => exact (Scalar.matched_decodeDateTime _ json).map

theorem matched_decodeList {α : Type} {decode : Path → Json → Decoded α}
    (each : ∀ path json, Matched (decode path json)) (json : Json) :
    Matched (decodeList decode path json) := by
  unfold decodeList
  split
  · exact avoids_decodeItems (fun item _ position => each _ item) 0
  · simp

end

namespace Decoder

variable {d : Decoder} {path : Path} {json : Json} {context : Context}

/-- Whatever is read from a value, no slot is found that does not fit. -/
structure MatchesSlots (d : Decoder) (json : Json) : Prop where
  object : ∀ path target, Matched (d.decodeObject path target json)
  references : ∀ context path target, Matched (d.decodeReferenceList context target path json)
  values : ∀ path, Matched (d.decodeExtensionList path json)

theorem matched_decodeId : Matched (decodeId path json) := by
  refine (Scalar.matched_decodeString json).bind fun text _ => ?_
  split <;> simp

theorem matched_referenceOf {object : Unit → Decoded Object} (inside : Matched (object ())) :
    Matched (referenceOf context path json object) := by
  unfold referenceOf
  split
  · exact (Scalar.matched_decodeIri _).map
  · exact inside.map

/-- An empty slot has the form that its property gives it, so there is a way to read into it. -/
theorem matched_readSlot (p : Property) (inner : d.MatchesSlots json) :
    Matched (d.readSlot p path json) := by
  unfold readSlot contentOf Slot.empty
  cases holds : p.kind with
  | scalar kind =>
    cases many : p.isList <;> simp only
    · exact (kind.matched_decode json).map
    · exact (matched_decodeList (fun _ => kind.matched_decode) json).map
  | object cls =>
    cases many : p.isList <;> simp only
    · exact (matched_referenceOf (inner.object path _)).map
    · exact (inner.references _ path _).map

theorem matched_decodeExtension (inner : d.MatchesSlots json) :
    Matched (d.decodeExtension path json) := by
  unfold decodeExtension extensionOf
  cases json with
  | object members => exact (inner.object path none).map
  | list items => exact (inner.values path).map
  | integer n =>
    dsimp only
    split <;> simp
  | string | float | bool => simp
  | null => simp

theorem matched_readExtensions (inner : d.MatchesSlots json) :
    Matched (d.readExtensions path json) := by
  unfold readExtensions extensionsOf
  split
  · exact inner.values path
  · exact (matched_decodeExtension inner).map

/-- The place that a key stands for is one of the layout, so the object has a slot there. -/
theorem matched_readMember (cls : NodeClass) (key : String) (inner : d.MatchesSlots json) :
    Matched (d.readMember path cls key json) := by
  unfold readMember
  cases role : cls.memberRole key with
  | type => simp
  | id => exact matched_decodeId.map
  | forbiddenId => simp
  | declared place =>
    obtain ⟨p, stands⟩ := NodeClass.keyPlace_eq_some_iff.mp (NodeClass.Means.of_memberRole role)
    simp only [stands.there]
    exact (matched_readSlot p inner).map
  | undeclared => exact (matched_readExtensions inner).map
  | unknown => simp

theorem matched_typeName (path : Path) (members : List (String × Json)) :
    Matched (typeName path members) := by
  unfold typeName
  split <;> simp

theorem matched_choose (d : Decoder) (path : Path) (type : String) (target : Option NodeClass) :
    Matched (d.choose path type target) := by
  unfold choose
  split
  · split
    · simp
    · split <;> simp
  · split <;> simp
  · simp

theorem matched_decodeObject {members : List (String × Json)}
    (inner : ∀ m ∈ members, d.MatchesSlots m.2) (path : Path) (target : Option NodeClass) :
    Matched (d.decodeObject path target (.object members)) := by
  rw [decodeObject]
  split
  · simp
  refine (matched_typeName path members).bind fun type _ => ?_
  refine (matched_choose d path type target).bind fun choice _ => ?_
  cases choice with
  | only cls =>
    exact avoids_decodeMembers (fun m among => matched_readMember cls m.1 (inner m among))
      (Object.shaped_ofType cls type) rfl
  | firstOf candidates =>
    -- What a candidate fails at is not passed on.
    dsimp only
    split <;> simp

/-- No slot is found that does not fit, by induction on what is inside the value. -/
theorem matchesSlots (d : Decoder) (json : Json) : d.MatchesSlots json := by
  induction json using Json.induct with
  | null | bool | integer | float | string =>
    refine ⟨fun path target => ?_, fun _ _ _ => Outcome.avoids_failAt.mpr (by simp),
      fun _ => Outcome.avoids_failAt.mpr (by simp)⟩
    rw [decodeObject_of_not_object d path target (by simp)]
    split <;> simp
  | list items inner =>
    refine ⟨fun path target => ?_, fun context path target => ?_, fun path => ?_⟩
    · rw [decodeObject_of_not_object d path target (by simp)]
      split <;> simp
    · rw [decodeReferenceList, decodeReferences_eq]
      refine avoids_decodeItems (fun item among position => ?_) 0
      exact matched_referenceOf ((inner item among).object _ target)
    · rw [decodeExtensionList, decodeExtensions_eq]
      exact avoids_decodeItems (fun item among _ => matched_decodeExtension (inner item among)) 0
  | object members inner =>
    exact ⟨matched_decodeObject inner, fun _ _ _ => Outcome.avoids_failAt.mpr (by simp),
      fun _ => Outcome.avoids_failAt.mpr (by simp)⟩

theorem matched_checkContext (members : List (String × Json)) :
    Matched (d.checkContext members) := by
  unfold checkContext
  split
  · simp
  · split <;> simp
  · simp

theorem matched_decodeRoots (d : Decoder) (json : Json) : Matched (d.decodeRoots json) := by
  unfold decodeRoots
  split
  · refine (matched_checkContext _).bind fun _ _ => ?_
    split
    · split
      · simp
      · exact matched_decodeList (fun path json => (d.matchesSlots json).object path none) _
    · exact ((d.matchesSlots _).object _ none).bind fun _ _ => Outcome.avoids_ok _
  · simp

end Decoder

/-! ## Slots keep their form -/

theorem ScalarKind.Reads.type_eq {kind : ScalarKind} {context : Context} {value : Scalar}
    (reads : kind.Reads context value) : value.type = kind.type := by
  obtain ⟨path, json, read⟩ := reads
  cases kind <;>
    · obtain ⟨_, -, rfl⟩ := Outcome.map_eq_ok.mp read
      rfl

/-- The content of a slot has the form that a property asks for: one value or a list, of references
or of scalars of its type. -/
inductive Slot.Suits (p : Property) : Slot → Prop where
  | scalar {kind : ScalarKind} {value : Option Scalar} (holds : p.kind = .scalar kind)
    (single : p.isList = false) (typed : ∀ v ∈ value, v.type = kind.type) : Suits p (.scalar value)
  | list {kind : ScalarKind} {values : List Scalar} (holds : p.kind = .scalar kind)
    (many : p.isList = true) (typed : ∀ v ∈ values, v.type = kind.type) : Suits p (.list values)
  | reference {cls : String} (target : Reference) (holds : p.kind = .object cls)
    (single : p.isList = false) : Suits p (.reference target)
  | references {cls : String} (targets : List Reference) (holds : p.kind = .object cls)
    (many : p.isList = true) : Suits p (.references targets)

theorem Slot.suits_empty (p : Property) : (Slot.empty p).Suits p := by
  unfold Slot.empty
  cases holds : p.kind with
  | scalar kind =>
    cases many : p.isList with
    | false => exact .scalar holds many nofun
    | true => exact .list holds many nofun
  | object cls =>
    cases many : p.isList with
    | false => exact .reference _ holds many
    | true => exact .references _ holds many

theorem Slot.Sound.suits {p : Property} {slot : Slot} (sound : slot.Sound p) : slot.Suits p := by
  cases sound with
  | unset => exact Slot.suits_empty p
  | scalar holds single reads =>
    exact .scalar holds single fun v same => Option.some.inj same ▸ reads.type_eq
  | list holds many reads => exact .list holds many fun v among => (reads v among).type_eq
  | reference holds single => exact .reference _ holds single
  | references holds many => exact .references _ holds many

/-- Each slot of an object has the form that its property asks for. -/
def Object.KeepsForm (o : Object) : Prop :=
  o.slots.length = o.cls.layout.length ∧ ∀ p slot, (p, slot) ∈ o.properties → slot.Suits p

theorem Object.Filled.keepsForm {unbounded : Prop} {o : Object} (filled : o.Filled unbounded) :
    o.KeepsForm := by
  refine ⟨filled.shaped.length, fun p slot there => ?_⟩
  obtain ⟨place, here⟩ := List.mem_iff_getElem?.mp there
  obtain ⟨hp, hs⟩ := Object.getElem?_properties.mp here
  exact (filled.slots place p slot hp hs).suits

/-! ## Nothing is written as null -/

namespace Json

/-- No value in a value is null, nor is it itself. -/
inductive NullFree : Json → Prop where
  | bool (b : Bool) : NullFree (.bool b)
  | integer (n : Int) : NullFree (.integer n)
  | float (x : Binary64) : NullFree (.float x)
  | string (s : String) : NullFree (.string s)
  | list {items : List Json} (each : ∀ item ∈ items, NullFree item) : NullFree (.list items)
  | object {members : List (String × Json)} (each : ∀ m ∈ members, NullFree m.2) :
    NullFree (.object members)

theorem NullFree.at?_ne_null {json : Json} (free : json.NullFree) (place : List Segment) :
    json.at? place ≠ some .null := by
  intro found
  induction place generalizing json with
  | nil =>
    rw [at?_nil] at found
    cases found
    cases free
  | cons segment place ih =>
    cases segment with
    | name key =>
      obtain ⟨members, value, rfl, there, inside⟩ := exists_of_at?_name found
      cases free with
      | object each => exact ih (each _ (Members.mem_of_get? there)) inside
    | index position =>
      obtain ⟨items, item, rfl, there, inside⟩ := exists_of_at?_index found
      cases free with
      | list each => exact ih (each item (List.mem_of_getElem? there)) inside

end Json

theorem ScalarKind.nullFree_encode (kind : ScalarKind) (context : Context) (value : Scalar) :
    (kind.encode context value).NullFree := by
  cases value <;> constructor

/-- The object is written without nulls, whatever has been written before. -/
def Object.WritesNoNull (o : Object) : Prop := ∀ seen, (Json.object (o.encode seen).1).NullFree

section

variable {seen : Seen}

theorem Reference.Sound.nullFree_encode {context : Context} {target : Reference}
    (sound : target.Sound context) (inside : ∀ x ∈ target.objects, x.WritesNoNull) :
    (target.encode context seen).1.NullFree := by
  cases sound with
  | iri => exact .string _
  | object o =>
    rw [Decoder.encode_unshared]
    exact inside o List.mem_cons_self seen

/-- A slot that is set holds something to be written. -/
theorem Slot.Sound.nullFree_encode {p : Property} {slot : Slot} (sound : slot.Sound p)
    (set : slot.isSet = true) (inside : ∀ x ∈ slot.objects, x.WritesNoNull) :
    (slot.encode p seen).1.NullFree := by
  cases sound with
  | unset => cases (Slot.isSet_empty p).symm.trans set
  | scalar holds =>
    rw [Slot.encode]
    simp only [holds]
    exact ScalarKind.nullFree_encode _ _ _
  | list holds =>
    rw [Slot.encode]
    simp only [holds]
    refine .list fun item among => ?_
    obtain ⟨value, -, rfl⟩ := List.mem_map.mp among
    exact ScalarKind.nullFree_encode _ _ _
  | reference holds single sound => exact sound.nullFree_encode inside
  | references holds many sound =>
    refine .list fun item among => ?_
    obtain ⟨target, there, seen', rfl⟩ := mem_encodeReferences among
    exact (sound target there).nullFree_encode fun x hx =>
      inside x (List.mem_flatMap.mpr ⟨target, there, hx⟩)

/-- A number that was read is finite, so it has a form of its own. -/
theorem Extension.Sound.nullFree_encode {value : Extension} (sound : value.Sound False)
    (inside : ∀ x ∈ value.objects, x.WritesNoNull) : (value.encode seen).1.NullFree := by
  induction value using Extension.induct generalizing seen with
  | reference target =>
    cases sound with
    | object o =>
      rw [Extension.encode, Decoder.encode_unshared]
      exact inside o List.mem_cons_self seen
  | string => exact .string _
  | integer => exact .integer _
  | boolean => exact .bool _
  | float x =>
    cases sound with
    | float finite =>
      obtain ⟨negative, rank, rfl⟩ := finite.resolve_left not_false
      exact .float _
  | list values ih =>
    cases sound with
    | list sound =>
      refine .list fun item among => ?_
      obtain ⟨value, there, seen', rfl⟩ := mem_encodeExtensionValues among
      exact ih value there (sound value there) fun x hx =>
        inside x (mem_extensionObjects.mpr ⟨value, there, hx⟩)

end

/-- What was read is written without nulls, by induction on the objects in it. -/
theorem Object.writesNoNull_of_sound {registry : Registry} {searched : Prop}
    {target : Option NodeClass} {o : Object}
    (sound : o.SoundThroughout registry searched False target) : o.WritesNoNull := by
  induction sound with
  | @intro target o here inside ih =>
    intro seen
    refine .object fun m among => ?_
    cases Object.writes_of_mem_encode among with
    | type | id => exact .string _
    | @slot p slot seen' there set =>
      obtain ⟨place, stands⟩ := List.mem_iff_getElem?.mp there
      obtain ⟨hp, hs⟩ := Object.getElem?_properties.mp stands
      exact (here.filled.slots place p slot hp hs).nullFree_encode set
        fun x hx => ih _ x (.inSlot there hx)
    | @extension key values seen' there =>
      obtain ⟨-, each⟩ := here.filled.extensions key values there
      refine .list fun item among => ?_
      obtain ⟨value, hv, seen'', rfl⟩ := mem_encodeExtensionValues among
      exact (each value hv).nullFree_encode fun x hx => ih none x (.inExtension there hv hx)

namespace Graph

theorem nullFree_toJson {graph : Graph} (each : ∀ root ∈ graph.roots, root.object.WritesNoNull) :
    graph.toJson.NullFree := by
  obtain ⟨registry, roots⟩ := graph
  have context : ∀ m ∈ [("@context", Json.string registry.contextUrl)], m.2.NullFree :=
    List.forall_mem_singleton.mpr (.string _)
  match roots with
  | [] => exact .object context
  | [root] =>
    cases each root List.mem_cons_self _ with
    | object own => exact .object fun m among => (Members.mem_union among).elim (context m) (own m)
  | first :: second :: rest =>
    refine .object fun m among => ?_
    rcases Members.mem_insert among with rfl | among
    · refine .list fun item there => ?_
      obtain ⟨members, written, rfl⟩ := List.mem_map.mp there
      obtain ⟨root, among, seen, rfl⟩ : ∃ root ∈ first :: second :: rest, ∃ seen,
          members = (root.object.encode seen).1 := mem_encodeRoots written
      exact each root among seen
    · exact context m among

end Graph

/-! ## Documents -/

theorem Json.Representable.rootObjects {document : Json} (representable : document.Representable) :
    ∀ json ∈ document.rootObjects, json.Representable := by
  cases representable with
  | @object members each =>
    cases listed : Members.get? members "@graph" with
    | none =>
      simp only [Json.rootObjects, listed, List.forall_mem_singleton]
      exact .object fun m among => each m (List.mem_filter.mp among).1
    | some graph =>
      have inner : graph.Representable := each _ (Members.mem_of_get? listed)
      simp only [Json.rootObjects, listed]
      cases inner with
      | list each => exact each
      | _ => exact fun _ there => absurd there List.not_mem_nil
  | _ => exact fun _ there => absurd there List.not_mem_nil

namespace Graph

variable {registry : Registry} {documents : List Json} {graph : Graph}

/-- Whatever documents have been read into a graph, no other stops at a slot that does not fit its
property, and every slot in the graph has the form that its property asks for. If the documents hold
only numbers that text can write, as they do when they are given as bytes, no null stands in the
document that is written of the graph. -/
theorem takes_no_fallback_of_reads (reads : Reads registry documents graph) :
    (∀ maxDepth document path, graph.decode maxDepth document ≠ .error ⟨path, .slotMismatch⟩) ∧
    (∀ root ∈ graph.roots, ∀ inner x, Object.Nested registry none root.object inner x →
      x.KeepsForm) ∧
    ((∀ document ∈ documents, document.Representable) →
      ∀ place, graph.toJson.at? place ≠ some .null) ∧
    ∀ bytes document, Json.ofBytes? bytes = some document → document.Representable := by
  have origin : ∀ root ∈ graph.roots, ∃ json ∈ documents.flatMap Json.rootObjects,
      Rooted registry root json := fun root => exists_mem_of_forall₂ reads.forall₂.2
  refine ⟨fun maxDepth document path fails => ?_, fun root there inner x nested => ?_,
    fun representable => ?_, fun bytes document => Json.representable_of_ofBytes?⟩
  · exact (Decoder.matched_decodeRoots ⟨graph.registry, maxDepth⟩ document).map _ fails rfl
  · obtain ⟨json, -, rooted⟩ := origin root there
    have sound := rooted.sound (.inl trivial)
    exact (sound.nested nested).here.filled.keepsForm
  · refine (nullFree_toJson fun root there => ?_).at?_ne_null
    obtain ⟨json, among, rooted⟩ := origin root there
    obtain ⟨document, given, among⟩ := List.mem_flatMap.mp among
    have own := (representable document given).rootObjects json among
    exact Object.writesNoNull_of_sound (rooted.sound (.inr own))

end Graph

namespace Sample

/-- A satchel has a label, weights and contents, and a document may say more of it. -/
def satchel : ClassDecl where
  iri := "ex:Satchel"
  compact := some "Satchel"
  nodeKind := none
  idAlias := none
  isAbstract := false
  extensible := some true
  parents := []
  properties := [
    ⟨"label", "ex:label", some "label", .scalar .string, false, none, none, [], []⟩,
    ⟨"weights", "ex:weights", some "weights", .scalar .integer, true, none, none, [], []⟩,
    ⟨"contents", "ex:contents", some "contents", .object "ex:Satchel", true, none, none, [], []⟩]

def satchelRegistry : Registry := (Registry.build "" [satchel]).toOption.getD ⟨"", [], []⟩

def emptySatchel : Json := .object [("@type", .string "Satchel")]

/-- A satchel with another one and a reference in it, and with undeclared values: an integer beyond
the signed range, an object in a list, and a fraction. -/
def packedSatchel : Json := .object [
  ("@context", .string ""),
  ("@type", .string "Satchel"),
  ("contents", .list [emptySatchel, .string "_:b"]),
  ("weights", .list [.integer 1, .integer 2]),
  ("x", .list [.integer 18446744073709551615, .list [emptySatchel], .float (.finite false 1)])]

end Sample

theorem Sample.representable_packedSatchel : Sample.packedSatchel.Representable := by
  simp [packedSatchel, emptySatchel]

theorem Sample.packedSatchel_nullFree : Registry.build "" [Sample.satchel] =
    .ok Sample.satchelRegistry ∧ ∃ graph,
      (Graph.empty Sample.satchelRegistry).decode 3 Sample.packedSatchel = .ok graph ∧
        (∀ maxDepth document path, graph.decode maxDepth document ≠ .error ⟨path, .slotMismatch⟩) ∧
          ∀ place, graph.toJson.at? place ≠ some .null := by
  obtain ⟨graph, read⟩ : ∃ graph,
      (Graph.empty Sample.satchelRegistry).decode 3 Sample.packedSatchel = .ok graph := ⟨_, rfl⟩
  obtain ⟨matched, -, nullFree, -⟩ := Graph.takes_no_fallback_of_reads (.next .empty read)
  refine ⟨rfl, graph, read, matched, nullFree ?_⟩
  exact List.forall_mem_singleton.mpr Sample.representable_packedSatchel

end ShapedGraph

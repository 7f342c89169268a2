import ShapedGraph.Graph.Document
import ShapedGraph.Proofs.Lookup

/-! Where the fault of a document that cannot be read is said to be. The path of the error leads to
a value of the document, and a fault that names the type of a value names the type of that one. -/

namespace ShapedGraph

/-- The type that a fault says the value at its path has, where it says one. -/
def DecodeFault.found? : DecodeFault → Option String
  | .expectedObject found | .expectedString found | .expectedBoolean found
  | .expectedInteger found | .expectedFloat found | .expectedList found
  | .unsupportedValue found => some found
  | _ => none

/-- The error is about a value that stands at a path, or about one inside it, to which its own path
leads on. -/
def DecodeError.Locates (e : DecodeError) (path : Path) (json : Json) : Prop :=
  ∃ place node, e.path.segments = path.segments ++ place ∧ json.at? place = some node ∧
    ∀ found, e.fault.found? = some found → found = node.typeName

namespace DecodeError.Locates

variable {e : DecodeError} {path : Path} {json : Json}

/-- An error about the value at the path itself. -/
theorem here {fault : DecodeFault} (names : ∀ found, fault.found? = some found →
    found = json.typeName) : Locates ⟨path, fault⟩ path json :=
  ⟨[], json, (List.append_nil _).symm, Json.at?_nil json, names⟩

theorem member {members : List (String × Json)} {key : String} {value : Json}
    (there : Members.get? members key = some value) (inside : e.Locates (path.member key) value) :
    e.Locates path (.object members) := by
  obtain ⟨place, node, leads, found, names⟩ := inside
  refine ⟨.name key :: place, node, ?_, ?_, names⟩
  · rw [leads, Path.member, Path.segments_push, List.append_assoc]
    rfl
  · simpa [there] using found

theorem item {items : List Json} {position : Nat} {item : Json}
    (there : items[position]? = some item) (inside : e.Locates (path.item position) item) :
    e.Locates path (.list items) := by
  obtain ⟨place, node, leads, found, names⟩ := inside
  refine ⟨.index position :: place, node, ?_, ?_, names⟩
  · rw [leads, Path.item, Path.segments_push, List.append_assoc]
    rfl
  · simpa [there] using found

end DecodeError.Locates

open DecodeError (Locates)

theorem locates_of_failAt {α : Type} {path : Path} {json : Json} {fault : DecodeFault}
    {e : DecodeError} (fails : (failAt path fault : Decoded α) = .error e)
    (names : ∀ found, fault.found? = some found → found = json.typeName) : e.Locates path json := by
  cases fails
  exact .here names

/-- A fault that names no type may be of any value. -/
theorem locates_of_untyped {α : Type} {path : Path} {json : Json} {fault : DecodeFault}
    {e : DecodeError} (fails : (failAt path fault : Decoded α) = .error e)
    (untyped : fault.found? = none) : e.Locates path json := by
  refine locates_of_failAt fails fun found names => ?_
  rw [untyped] at names
  cases names

/-! ## Scalars and lists -/

section

variable {path : Path} {json : Json} {e : DecodeError} {context : Context}

namespace Scalar

theorem locates_of_decodeString (fails : decodeString path json = .error e) :
    e.Locates path json := by
  cases json with
  | string text => cases fails
  | _ => exact locates_of_failAt fails fun _ same => (Option.some.inj same).symm

theorem locates_of_decodeBoolean (fails : decodeBoolean path json = .error e) :
    e.Locates path json := by
  cases json with
  | bool b => cases fails
  | _ => exact locates_of_failAt fails fun _ same => (Option.some.inj same).symm

theorem locates_of_integerOfFloat {x : Binary64} (fails : integerOfFloat path x = .error e) :
    e.Locates path json := by
  unfold integerOfFloat at fails
  split at fails
  · cases fails
  · exact locates_of_untyped fails rfl

theorem locates_of_decodeInteger (fails : decodeInteger path json = .error e) :
    e.Locates path json := by
  cases json with
  | integer n =>
    rw [decodeInteger] at fails
    split at fails
    · cases fails
    · exact locates_of_integerOfFloat fails
  | float x => exact locates_of_integerOfFloat fails
  | _ => exact locates_of_failAt fails fun _ same => (Option.some.inj same).symm

theorem locates_of_decodeFloat (fails : decodeFloat path json = .error e) :
    e.Locates path json := by
  cases json with
  | integer | float => cases fails
  | string text =>
    rw [decodeFloat] at fails
    split at fails
    · cases fails
    · exact locates_of_untyped fails rfl
  | _ => exact locates_of_failAt fails fun _ same => (Option.some.inj same).symm

theorem locates_of_decodeIri (fails : decodeIri context path json = .error e) :
    e.Locates path json := by
  rw [decodeIri] at fails
  rcases Outcome.bind_eq_error.mp fails with fails | ⟨text, -, fails⟩
  · exact locates_of_decodeString fails
  · dsimp only at fails
    split at fails
    · cases fails
    · exact locates_of_untyped fails rfl

theorem locates_of_decodeDateTime {required : Bool}
    (fails : decodeDateTime required path json = .error e) : e.Locates path json := by
  rw [decodeDateTime] at fails
  rcases Outcome.bind_eq_error.mp fails with fails | ⟨text, -, fails⟩
  · exact locates_of_decodeString fails
  · split at fails
    · cases fails
    · exact locates_of_untyped fails rfl

end Scalar

theorem ScalarKind.locates_of_decode {kind : ScalarKind}
    (fails : kind.decode context path json = .error e) : e.Locates path json := by
  cases kind with
  | string => exact Scalar.locates_of_decodeString (Outcome.map_eq_error.mp fails)
  | iri => exact Scalar.locates_of_decodeIri (Outcome.map_eq_error.mp fails)
  | boolean => exact Scalar.locates_of_decodeBoolean (Outcome.map_eq_error.mp fails)
  | integer => exact Scalar.locates_of_decodeInteger (Outcome.map_eq_error.mp fails)
  | float => exact Scalar.locates_of_decodeFloat (Outcome.map_eq_error.mp fails)
  | dateTime | dateTimeStamp =>
    exact Scalar.locates_of_decodeDateTime (Outcome.map_eq_error.mp fails)

/-- A list fails at one of its elements, in the place of that element. -/
theorem exists_item_of_decodeItems {α : Type} {decode : Path → Json → Decoded α}
    {items : List Json} {position : Nat} (each : ∀ item ∈ items, ∀ path e,
      decode path item = .error e → e.Locates path item)
    (fails : decodeItems decode path position items = .error e) :
    ∃ i item, items[i]? = some item ∧ e.Locates (path.item (position + i)) item := by
  induction items generalizing position with
  | nil => cases fails
  | cons item items ih =>
    obtain ⟨here, later⟩ := List.forall_mem_cons.mp each
    rw [decodeItems] at fails
    rcases Outcome.bind_eq_error.mp fails with fails | ⟨value, -, fails⟩
    · exact ⟨0, item, rfl, here _ _ fails⟩
    · rcases Outcome.bind_eq_error.mp fails with fails | ⟨values, -, fails⟩
      · obtain ⟨i, item', there, inside⟩ := ih later fails
        refine ⟨i + 1, item', there, ?_⟩
        rwa [Nat.add_comm i 1, ← Nat.add_assoc]
      · cases fails

theorem locates_of_decodeItems {α : Type} {decode : Path → Json → Decoded α} {items : List Json}
    (each : ∀ item ∈ items, ∀ path e, decode path item = .error e → e.Locates path item)
    (fails : decodeItems decode path 0 items = .error e) : e.Locates path (.list items) := by
  obtain ⟨i, item, there, inside⟩ := exists_item_of_decodeItems each fails
  rw [Nat.zero_add] at inside
  exact .item there inside

theorem locates_of_decodeList {α : Type} {decode : Path → Json → Decoded α}
    (each : ∀ path json e, decode path json = .error e → e.Locates path json)
    (fails : decodeList decode path json = .error e) : e.Locates path json := by
  cases json with
  | list items => exact locates_of_decodeItems (fun item _ path e => each path item e) fails
  | _ => exact locates_of_failAt fails fun _ same => (Option.some.inj same).symm

end

/-! ## Objects -/

namespace Decoder

variable {d : Decoder} {path : Path} {json : Json} {e : DecodeError}

/-- Every fault that reading a value stops at is located, whatever was to be read from it. -/
structure LocatesFaults (d : Decoder) (json : Json) : Prop where
  object : ∀ path target e, d.decodeObject path target json = .error e → e.Locates path json
  references : ∀ context path target e,
    d.decodeReferenceList context target path json = .error e → e.Locates path json
  values : ∀ path e, d.decodeExtensionList path json = .error e → e.Locates path json

theorem locates_of_decodeId (fails : decodeId path json = .error e) : e.Locates path json := by
  rw [decodeId] at fails
  rcases Outcome.bind_eq_error.mp fails with fails | ⟨text, -, fails⟩
  · exact Scalar.locates_of_decodeString fails
  · split at fails
    · cases fails
    · exact locates_of_untyped fails rfl

theorem locates_of_referenceOf {context : Context} {object : Unit → Decoded Object}
    (inside : ∀ e, object () = .error e → e.Locates path json)
    (fails : referenceOf context path json object = .error e) : e.Locates path json := by
  unfold referenceOf at fails
  split at fails
  · exact Scalar.locates_of_decodeIri (Outcome.map_eq_error.mp fails)
  · exact inside e (Outcome.map_eq_error.mp fails)

theorem locates_of_contentOf {p : Property} {slot : Slot} (locates : d.LocatesFaults json)
    (fails : d.contentOf p path json slot (fun target => d.decodeObject path target json)
      (fun context target => d.decodeReferenceList context target path json) = .error e) :
    e.Locates path json := by
  unfold contentOf at fails
  split at fails
  · exact ScalarKind.locates_of_decode (Outcome.map_eq_error.mp fails)
  · refine locates_of_decodeList (fun path json e => ?_) (Outcome.map_eq_error.mp fails)
    exact ScalarKind.locates_of_decode
  · refine locates_of_referenceOf (fun e => ?_) (Outcome.map_eq_error.mp fails)
    exact locates.object path _ e
  · exact locates.references _ path _ e (Outcome.map_eq_error.mp fails)
  · exact locates_of_untyped fails rfl

theorem locates_of_decodeExtension (locates : d.LocatesFaults json)
    (fails : d.decodeExtension path json = .error e) : e.Locates path json := by
  unfold decodeExtension extensionOf at fails
  cases json with
  | object members => exact locates.object path none e (Outcome.map_eq_error.mp fails)
  | list items => exact locates.values path e (Outcome.map_eq_error.mp fails)
  | integer n =>
    simp only at fails
    split at fails <;> cases fails
  | string | float | bool => cases fails
  | null => exact locates_of_failAt fails fun _ same => (Option.some.inj same).symm

theorem locates_of_readExtensions (locates : d.LocatesFaults json)
    (fails : d.readExtensions path json = .error e) : e.Locates path json := by
  unfold readExtensions extensionsOf at fails
  split at fails
  · exact locates.values path e fails
  · exact locates_of_decodeExtension locates (Outcome.map_eq_error.mp fails)

/-- Members fail at one of them, or at their object if it does not know one of them. -/
theorem locates_of_decodeMembers {all members : List (String × Json)} {o : Object}
    (among : ∀ m ∈ members, Members.get? all m.1 = some m.2)
    (each : ∀ m ∈ members, d.LocatesFaults m.2)
    (fails : d.decodeMembers path members o = .error e) : e.Locates path (.object all) := by
  induction members generalizing o with
  | nil => cases fails
  | cons m members ih =>
    obtain ⟨key, value⟩ := m
    obtain ⟨there, beside⟩ := List.forall_mem_cons.mp among
    obtain ⟨here, later⟩ := List.forall_mem_cons.mp each
    rw [decodeMembers] at fails
    cases role : o.cls.memberRole key with
    | type =>
      simp only [role] at fails
      exact ih beside later fails
    | id =>
      simp only [role] at fails
      rcases Outcome.bind_eq_error.mp fails with fails | ⟨id, -, fails⟩
      · exact .member there (locates_of_decodeId fails)
      · exact ih beside later fails
    | forbiddenId =>
      simp only [role] at fails
      exact .member there (locates_of_untyped fails rfl)
    | declared place =>
      simp only [role] at fails
      split at fails
      · exact .member there (locates_of_untyped fails rfl)
      · rcases Outcome.bind_eq_error.mp fails with fails | ⟨slot, -, fails⟩
        · exact .member there (locates_of_contentOf here fails)
        · exact ih beside later fails
    | undeclared =>
      simp only [role] at fails
      rcases Outcome.bind_eq_error.mp fails with fails | ⟨values, -, fails⟩
      · exact .member there (locates_of_readExtensions here fails)
      · exact ih beside later fails
    | unknown =>
      simp only [role] at fails
      exact locates_of_untyped fails rfl

theorem locates_of_choose {type : String} {target : Option NodeClass}
    (fails : d.choose path type target = .error e) : e.Locates path json := by
  unfold choose at fails
  split at fails
  · split at fails
    · exact locates_of_untyped fails rfl
    · split at fails
      · exact locates_of_untyped fails rfl
      · cases fails
  · split at fails <;> cases fails
  · cases fails

theorem locates_of_decodeObject {members : List (String × Json)} {target : Option NodeClass}
    (sorted : Members.Sorted members) (each : ∀ m ∈ members, d.LocatesFaults m.2)
    (fails : d.decodeObject path target (.object members) = .error e) :
    e.Locates path (.object members) := by
  have among : ∀ m ∈ members, Members.get? members m.1 = some m.2 := fun m hm =>
    Members.get?_of_mem sorted hm
  rw [decodeObject] at fails
  split at fails
  · exact locates_of_untyped fails rfl
  rcases Outcome.bind_eq_error.mp fails with fails | ⟨type, -, fails⟩
  · unfold typeName at fails
    split at fails
    · cases fails
    · exact locates_of_untyped fails rfl
    · exact locates_of_untyped fails rfl
  rcases Outcome.bind_eq_error.mp fails with fails | ⟨choice, -, fails⟩
  · exact locates_of_choose fails
  cases choice with
  | only cls => exact locates_of_decodeMembers among each fails
  | firstOf candidates =>
    -- The faults of candidates are not passed on.
    simp only at fails
    split at fails
    · cases fails
    · exact locates_of_untyped fails rfl

/-- From a value that is neither a list nor an object, the fault is that it is not one. -/
theorem locatesFaults_leaf (notList : ∀ items, json ≠ .list items)
    (notObject : ∀ members, json ≠ .object members) : d.LocatesFaults json where
  object path target e fails := by
    unfold decodeObject at fails
    split at fails
    · exact locates_of_untyped fails rfl
    · cases json <;> first
        | exact absurd rfl (notObject _)
        | exact locates_of_failAt fails fun _ same => (Option.some.inj same).symm
  references context path target e fails := by
    cases json <;> first
      | exact absurd rfl (notList _)
      | exact locates_of_failAt fails fun _ same => (Option.some.inj same).symm
  values path e fails := by
    cases json <;> first
      | exact absurd rfl (notList _)
      | exact locates_of_failAt fails fun _ same => (Option.some.inj same).symm

/-- Faults are located in every value, by induction on what is inside it. -/
theorem locatesFaults (d : Decoder) (json : Json) (ordered : json.Ordered) :
    d.LocatesFaults json := by
  induction json using Json.induct with
  | null | bool | integer | float | string => exact locatesFaults_leaf (by simp) (by simp)
  | list items ih =>
    have each : ∀ item ∈ items, d.LocatesFaults item := fun item among =>
      ih item among (by cases ordered with | list each => exact each item among)
    refine ⟨fun path target e fails => ?_, fun context path target e fails => ?_,
      fun path e fails => ?_⟩
    · unfold decodeObject at fails
      split at fails
      · exact locates_of_untyped fails rfl
      · exact locates_of_failAt fails fun _ same => (Option.some.inj same).symm
    · rw [decodeReferenceList, decodeReferences_eq] at fails
      refine locates_of_decodeItems (fun item among path e fails => ?_) fails
      exact locates_of_referenceOf (fun e => (each item among).object path target e) fails
    · rw [decodeExtensionList, decodeExtensions_eq] at fails
      refine locates_of_decodeItems (fun item among path e fails => ?_) fails
      exact locates_of_decodeExtension (each item among) fails
  | object members ih =>
    cases ordered with
    | object sorted ordered =>
      have each : ∀ m ∈ members, d.LocatesFaults m.2 := fun m hm => ih m hm (ordered m hm)
      refine ⟨fun path target e fails => locates_of_decodeObject sorted each fails,
        fun context path target e fails => ?_, fun path e fails => ?_⟩
      · exact locates_of_failAt fails fun _ same => (Option.some.inj same).symm
      · exact locates_of_failAt fails fun _ same => (Option.some.inj same).symm

/-! ## Documents -/

theorem locates_of_checkContext {members : List (String × Json)}
    (fails : d.checkContext members = .error e) : e.Locates .root (.object members) := by
  unfold checkContext at fails
  split at fails
  · exact locates_of_untyped fails rfl
  · rename_i found
    split at fails
    · cases fails
    · exact .member found (locates_of_untyped fails rfl)
  · rename_i found
    exact .member found (locates_of_untyped fails rfl)

/-- What is found without the context is found with it. -/
theorem locates_of_erase {members : List (String × Json)} {key : String}
    (located : e.Locates path (.object (Members.erase members key))) :
    e.Locates path (.object members) := by
  obtain ⟨place, node, leads, found, names⟩ := located
  cases place with
  | nil =>
    cases found
    exact ⟨[], _, leads, rfl, names⟩
  | cons segment place =>
    cases segment with
    | index position => cases found
    | name other =>
      obtain ⟨_, value, same, there, inside⟩ := Json.exists_of_at?_name found
      cases same
      rw [Members.get?_erase] at there
      split at there
      · cases there
      · exact ⟨.name other :: place, node, leads, by simp [there, inside], names⟩

theorem locates_of_decodeRoots (ordered : json.Ordered) (fails : d.decodeRoots json = .error e) :
    e.Locates .root json := by
  cases json with
  | object members =>
    rw [decodeRoots] at fails
    rcases Outcome.bind_eq_error.mp fails with fails | ⟨-, -, fails⟩
    · exact locates_of_checkContext fails
    cases listed : Members.get? members "@graph" with
    | some graph =>
      simp only [listed] at fails
      split at fails
      · exact locates_of_untyped fails rfl
      · refine .member listed ?_
        have ordered : graph.Ordered := by
          cases ordered with
          | object sorted each => exact each _ (Members.mem_of_get? listed)
        cases graph with
        | list items =>
          refine locates_of_decodeItems (fun item among path e fails => ?_) fails
          cases ordered with
          | list each => exact (locatesFaults d item (each item among)).object path none e fails
        | _ => exact locates_of_failAt fails fun _ same => (Option.some.inj same).symm
    | none =>
      simp only [listed] at fails
      rcases Outcome.bind_eq_error.mp fails with fails | ⟨o, -, fails⟩
      · have located := (locatesFaults d _ (ordered.erase _)).object _ _ e fails
        exact locates_of_erase located
      · cases fails
  | _ => exact locates_of_failAt fails fun _ same => (Option.some.inj same).symm

end Decoder

namespace Graph

/-- If a document cannot be read, the path of the error leads to a value of the document, and if the
fault names a type of JSON value, it is the type of that value. -/
theorem exists_at?_of_decode_eq_error {graph : Graph} {maxDepth : Nat} {document : Json}
    {e : DecodeError} (ordered : document.Ordered)
    (fails : graph.decode maxDepth document = .error e) :
    ∃ node, document.at? e.path.segments = some node ∧
      ∀ found, e.fault.found? = some found → found = node.typeName := by
  have located := Decoder.locates_of_decodeRoots ordered (Outcome.map_eq_error.mp fails)
  obtain ⟨place, node, leads, found, names⟩ := located
  exact ⟨node, leads ▸ found, names⟩

end Graph

namespace Sample

/-- A drawer has a label and holds a list of drawers. -/
def drawer : ClassDecl where
  iri := "ex:Drawer"
  compact := none
  nodeKind := none
  idAlias := none
  isAbstract := false
  extensible := none
  parents := []
  properties := [
    ⟨"label", "ex:label", some "label", .scalar .string, false, none, none, [], []⟩,
    ⟨"inside", "ex:inside", some "inside", .object "ex:Drawer", true, none, none, [], []⟩]

def drawerRegistry : Registry := (Registry.build "" [drawer]).toOption.getD ⟨"", [], []⟩

/-- A list of one drawer, with a drawer inside whose label is a number. -/
def misfiled : Json := .object
  [("@context", .string ""), ("@graph", .list [.object
    [("@type", .string "ex:Drawer"), ("inside", .list [.object
      [("@type", .string "ex:Drawer"), ("label", .integer 7)]])]])]

theorem ordered_misfiled : misfiled.Ordered := by
  have inner : Json.Ordered (.object [("@type", .string "ex:Drawer"), ("label", .integer 7)]) := by
    refine .object (by decide) ?_
    simp only [List.forall_mem_cons]
    exact ⟨.string _, .integer _, nofun⟩
  refine .object (by decide) ?_
  simp only [List.forall_mem_cons]
  refine ⟨.string _, .list ?_, nofun⟩
  simp only [List.forall_mem_singleton]
  refine .object (by decide) ?_
  simp only [List.forall_mem_cons]
  exact ⟨.string _, .list (List.forall_mem_singleton.mpr inner), nofun⟩

end Sample

theorem Sample.misfiled_located : ∃ e node,
    (Graph.empty Sample.drawerRegistry).decode 9 Sample.misfiled = .error e ∧
      e.path.segments = [.name "@graph", .index 0, .name "inside", .index 0, .name "label"] ∧
        Sample.misfiled.at? e.path.segments = some node ∧
          e.fault = .expectedString node.typeName := by
  obtain ⟨e, fails, place, fault⟩ : ∃ e,
      (Graph.empty Sample.drawerRegistry).decode 9 Sample.misfiled = .error e ∧
        e.path.segments = [.name "@graph", .index 0, .name "inside", .index 0, .name "label"] ∧
          e.fault = .expectedString "number" := ⟨_, rfl, rfl, rfl⟩
  obtain ⟨node, found, names⟩ :=
    Graph.exists_at?_of_decode_eq_error Sample.ordered_misfiled fails
  refine ⟨e, node, fails, place, found, ?_⟩
  rw [fault, names "number" (by rw [fault]; rfl)]

end ShapedGraph

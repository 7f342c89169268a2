import ShapedGraph.Graph.Document
import ShapedGraph.Proofs.Json
import ShapedGraph.Proofs.Reading

/-! Reading in another place. What an object is read to does not depend on where it stands: if the
path to it gets longer and the limit by as much, it is read to the same object, or it fails at the
same fault with the longer path in front. So a single root can share the members of its document or
be listed alone, as long as the two steps to the list do not exceed the limit. -/

namespace ShapedGraph

/-- The path from a start on. -/
def Path.under (path start : Path) : Path := ⟨start.segments ++ path.segments⟩

namespace Path

variable (path start : Path)

@[simp] theorem under_root : root.under start = start := by
  rw [under, root, List.append_nil]

@[simp] theorem root_under : path.under root = path := rfl

@[simp] theorem length_under : (path.under start).length = start.length + path.length := by
  simp [under, length]

@[simp] theorem member_under (key : String) :
    (path.under start).member key = (path.member key).under start := by
  simp [under, member, push]

@[simp] theorem item_under (position : Nat) :
    (path.under start).item position = (path.item position).under start := by
  simp [under, item, push]

end Path

/-- The fault under another limit, which matters to faults that name the limit. -/
def DecodeFault.withLimit (limit : Nat) : DecodeFault → DecodeFault
  | .depthExceeded _ => .depthExceeded limit
  | fault => fault

@[simp] theorem DecodeFault.withLimit_withLimit (fault : DecodeFault) (limit other : Nat) :
    (fault.withLimit other).withLimit limit = fault.withLimit limit := by
  cases fault <;> rfl

/-- The error of reading the same from a start on, under another limit. -/
def DecodeError.moved (start : Path) (limit : Nat) (e : DecodeError) : DecodeError :=
  ⟨e.path.under start, e.fault.withLimit limit⟩

/-! ## Scalars and lists -/

section

variable (start : Path) (limit : Nat) (path : Path) (json : Json)

namespace Scalar

theorem decodeString_under : decodeString (path.under start) json =
    (decodeString path json).mapError (·.moved start limit) := by
  cases json <;> rfl

theorem decodeBoolean_under : decodeBoolean (path.under start) json =
    (decodeBoolean path json).mapError (·.moved start limit) := by
  cases json <;> rfl

theorem integerOfFloat_under (x : Binary64) : integerOfFloat (path.under start) x =
    (integerOfFloat path x).mapError (·.moved start limit) := by
  unfold integerOfFloat
  cases x.toInt?.bind toInt64? <;> rfl

theorem decodeInteger_under : decodeInteger (path.under start) json =
    (decodeInteger path json).mapError (·.moved start limit) := by
  cases json with
  | integer n =>
    rw [decodeInteger, decodeInteger]
    cases toInt64? n with
    | some word => rfl
    | none => exact integerOfFloat_under start limit path _
  | float x => exact integerOfFloat_under start limit path x
  | _ => rfl

theorem decodeFloat_under : decodeFloat (path.under start) json =
    (decodeFloat path json).mapError (·.moved start limit) := by
  cases json with
  | string text =>
    rw [decodeFloat, decodeFloat]
    cases Binary64.parse? text <;> rfl
  | _ => rfl

theorem decodeIri_under (context : Context) : decodeIri context (path.under start) json =
    (decodeIri context path json).mapError (·.moved start limit) := by
  rw [decodeIri, decodeIri, Outcome.mapError_bind, decodeString_under start limit]
  refine congrArg _ (funext fun text => ?_)
  dsimp only
  split <;> rfl

theorem decodeDateTime_under (required : Bool) : decodeDateTime required (path.under start) json =
    (decodeDateTime required path json).mapError (·.moved start limit) := by
  rw [decodeDateTime, decodeDateTime, Outcome.mapError_bind, decodeString_under start limit]
  refine congrArg _ (funext fun text => ?_)
  cases DateTime.ofChars? required text.toList <;> rfl

end Scalar

theorem ScalarKind.decode_under (kind : ScalarKind) (context : Context) :
    kind.decode context (path.under start) json =
      (kind.decode context path json).mapError (·.moved start limit) := by
  cases kind with
  | string =>
    rw [decode, decode, Outcome.mapError_map, Scalar.decodeString_under start limit]
  | iri => rw [decode, decode, Outcome.mapError_map, Scalar.decodeIri_under start limit]
  | boolean => rw [decode, decode, Outcome.mapError_map, Scalar.decodeBoolean_under start limit]
  | integer => rw [decode, decode, Outcome.mapError_map, Scalar.decodeInteger_under start limit]
  | float => rw [decode, decode, Outcome.mapError_map, Scalar.decodeFloat_under start limit]
  | dateTime | dateTimeStamp =>
    rw [decode, decode, Outcome.mapError_map, Scalar.decodeDateTime_under start limit]

end

/-- A list is read alike elsewhere if each of its elements is. -/
theorem decodeItems_under {α : Type} (start : Path) (limit : Nat)
    {decode decode' : Path → Json → Decoded α} {items : List Json}
    (each : ∀ item ∈ items, ∀ path, decode' (path.under start) item =
      (decode path item).mapError (·.moved start limit)) (path : Path) (position : Nat) :
    decodeItems decode' (path.under start) position items =
      (decodeItems decode path position items).mapError (·.moved start limit) := by
  induction items generalizing position with
  | nil => rfl
  | cons item items ih =>
    obtain ⟨here, later⟩ := List.forall_mem_cons.mp each
    rw [decodeItems, decodeItems, Outcome.mapError_bind, Path.item_under, here]
    refine congrArg _ (funext fun value => ?_)
    rw [Outcome.mapError_bind, ih later]
    rfl

theorem decodeList_under {α : Type} (start : Path) (limit : Nat)
    {decode : Path → Json → Decoded α} (each : ∀ json path, decode (path.under start) json =
      (decode path json).mapError (·.moved start limit)) (path : Path) (json : Json) :
    decodeList decode (path.under start) json =
      (decodeList decode path json).mapError (·.moved start limit) := by
  cases json with
  | list items => exact decodeItems_under start limit (fun item _ => each item) path 0
  | _ => rfl

/-! ## Objects -/

namespace Decoder

variable {d : Decoder} {start path : Path} {json : Json}

/-- The decoder that has as many steps left at the end of a path as this one has at the root. -/
def beyond (d : Decoder) (start : Path) : Decoder := ⟨d.registry, d.maxDepth + start.length⟩

@[simp] theorem beyond_registry (d : Decoder) (start : Path) :
    (d.beyond start).registry = d.registry := rfl

/-- The limit is exceeded in the one place exactly if it is in the other. -/
theorem maxDepth_beyond_lt (d : Decoder) (start path : Path) :
    (d.beyond start).maxDepth < (path.under start).length ↔ d.maxDepth < path.length := by
  simp only [beyond, Path.length_under]
  omega

/-- Reading a value from a start on comes to the same as reading it from the root, whatever is to be
read from it. -/
structure Relocates (d : Decoder) (start : Path) (json : Json) : Prop where
  object : ∀ path target, (d.beyond start).decodeObject (path.under start) target json =
    (d.decodeObject path target json).mapError (·.moved start (d.beyond start).maxDepth)
  references : ∀ context path target,
    (d.beyond start).decodeReferenceList context target (path.under start) json =
      (d.decodeReferenceList context target path json).mapError
        (·.moved start (d.beyond start).maxDepth)
  values : ∀ path, (d.beyond start).decodeExtensionList (path.under start) json =
    (d.decodeExtensionList path json).mapError (·.moved start (d.beyond start).maxDepth)

theorem typeName_under (start : Path) (limit : Nat) (path : Path) (members : List (String × Json)) :
    typeName (path.under start) members =
      (typeName path members).mapError (·.moved start limit) := by
  unfold typeName
  split <;> rfl

theorem choose_under (d : Decoder) (start : Path) (limit : Nat) (path : Path) (type : String)
    (target : Option NodeClass) :
    (d.beyond start).choose (path.under start) type target =
      (d.choose path type target).mapError (·.moved start limit) := by
  unfold choose
  rw [beyond_registry]
  split
  · split
    · rfl
    · split <;> rfl
  · split <;> rfl
  · rfl

theorem decodeId_under (start : Path) (limit : Nat) (path : Path) (json : Json) :
    decodeId (path.under start) json =
    (decodeId path json).mapError (·.moved start limit) := by
  rw [decodeId, decodeId, Outcome.mapError_bind, Scalar.decodeString_under start limit]
  refine congrArg _ (funext fun id => ?_)
  split <;> rfl

theorem referenceOf_under (limit : Nat) (context : Context) {object object' : Unit → Decoded Object}
    (same : object' () = (object ()).mapError (·.moved start limit)) :
    referenceOf context (path.under start) json object' =
      (referenceOf context path json object).mapError (·.moved start limit) := by
  unfold referenceOf
  split
  · rw [Outcome.mapError_map, Scalar.decodeIri_under start limit]
  · rw [Outcome.mapError_map, same]

theorem contentOf_under (relocates : d.Relocates start json) (p : Property) (slot : Slot) :
    (d.beyond start).contentOf p (path.under start) json slot
      (fun target => (d.beyond start).decodeObject (path.under start) target json)
      (fun context target =>
        (d.beyond start).decodeReferenceList context target (path.under start) json) =
    (d.contentOf p path json slot (fun target => d.decodeObject path target json)
      fun context target => d.decodeReferenceList context target path json).mapError
        (·.moved start (d.beyond start).maxDepth) := by
  unfold contentOf
  rw [beyond_registry]
  split
  · rw [Outcome.mapError_map, ScalarKind.decode_under]
  · rw [Outcome.mapError_map, decodeList_under start _ fun json path =>
      ScalarKind.decode_under start _ path json _ _]
  · rw [Outcome.mapError_map]
    exact congrArg _ (referenceOf_under _ _ (relocates.object path _))
  · rw [Outcome.mapError_map]
    exact congrArg _ (relocates.references _ path _)
  · rfl

theorem decodeExtension_under (relocates : d.Relocates start json) :
    (d.beyond start).decodeExtension (path.under start) json =
      (d.decodeExtension path json).mapError (·.moved start (d.beyond start).maxDepth) := by
  unfold decodeExtension extensionOf
  cases json with
  | object members =>
    dsimp only
    rw [Outcome.mapError_map, relocates.object]
  | list items =>
    dsimp only
    rw [Outcome.mapError_map, relocates.values]
  | integer n =>
    dsimp only
    split <;> rfl
  | _ => rfl

theorem readExtensions_under (relocates : d.Relocates start json) :
    (d.beyond start).readExtensions (path.under start) json =
      (d.readExtensions path json).mapError (·.moved start (d.beyond start).maxDepth) := by
  unfold readExtensions extensionsOf
  split
  · exact relocates.values path
  · rw [Outcome.mapError_map]
    exact congrArg _ (decodeExtension_under relocates)

theorem decodeMembers_under {members : List (String × Json)}
    (each : ∀ m ∈ members, d.Relocates start m.2) (path : Path) (o : Object) :
    (d.beyond start).decodeMembers (path.under start) members o =
      (d.decodeMembers path members o).mapError (·.moved start (d.beyond start).maxDepth) := by
  induction members generalizing o with
  | nil => rfl
  | cons m members ih =>
    obtain ⟨key, value⟩ := m
    obtain ⟨here, later⟩ := List.forall_mem_cons.mp each
    have rest := ih later
    rw [decodeMembers, decodeMembers, Path.member_under]
    cases o.cls.memberRole key with
    | type => exact rest o
    | id =>
      dsimp only
      rw [Outcome.mapError_bind, decodeId_under start (d.beyond start).maxDepth]
      exact congrArg _ (funext fun id => rest _)
    | forbiddenId | unknown => rfl
    | declared place =>
      dsimp only
      split
      · rfl
      · rw [Outcome.mapError_bind, contentOf_under here]
        exact congrArg _ (funext fun slot => rest _)
    | undeclared =>
      dsimp only
      rw [Outcome.mapError_bind]
      show ((d.beyond start).readExtensions _ value >>= _) = _
      rw [readExtensions_under here]
      exact congrArg _ (funext fun values => rest _)

theorem decodeObject_under_of_members {members : List (String × Json)}
    (each : ∀ m ∈ members, d.Relocates start m.2) (path : Path) (target : Option NodeClass) :
    (d.beyond start).decodeObject (path.under start) target (.object members) =
      (d.decodeObject path target (.object members)).mapError
        (·.moved start (d.beyond start).maxDepth) := by
  have same := decodeMembers_under each path
  rw [decodeObject, decodeObject]
  by_cases above : d.maxDepth < path.length
  · rw [if_pos above, if_pos ((d.maxDepth_beyond_lt start path).mpr above)]
    rfl
  rw [if_neg above, if_neg (mt (d.maxDepth_beyond_lt start path).mp above), Outcome.mapError_bind,
    typeName_under start (d.beyond start).maxDepth]
  refine congrArg _ (funext fun type => ?_)
  rw [Outcome.mapError_bind, choose_under d start (d.beyond start).maxDepth]
  refine congrArg _ (funext fun choice => ?_)
  cases choice with
  | only cls => exact same _
  | firstOf candidates =>
    -- A candidate that fails is passed over wherever it fails.
    simp only [same, Outcome.toOption_mapError]
    split <;> rfl

theorem decodeObject_under_of_not_object (notObject : ∀ members, json ≠ .object members)
    (path : Path) (target : Option NodeClass) :
    (d.beyond start).decodeObject (path.under start) target json =
      (d.decodeObject path target json).mapError
        (·.moved start (d.beyond start).maxDepth) := by
  rw [decodeObject_of_not_object _ _ _ notObject, decodeObject_of_not_object _ _ _ notObject]
  by_cases above : d.maxDepth < path.length
  · rw [if_pos above, if_pos ((d.maxDepth_beyond_lt start path).mpr above)]
    rfl
  · rw [if_neg above, if_neg (mt (d.maxDepth_beyond_lt start path).mp above)]
    rfl

/-- Every value is read alike elsewhere, by induction on what is inside it. -/
theorem relocates (d : Decoder) (start : Path) (json : Json) : d.Relocates start json := by
  induction json using Json.induct with
  | null | bool | integer | float | string =>
    exact ⟨decodeObject_under_of_not_object (by simp), fun _ _ _ => rfl, fun _ => rfl⟩
  | list items ih =>
    refine ⟨decodeObject_under_of_not_object (by simp), fun context path target => ?_,
      fun path => ?_⟩
    · rw [decodeReferenceList, decodeReferenceList, decodeReferences_eq, decodeReferences_eq]
      refine decodeItems_under start _ (fun item among path => ?_) path 0
      exact referenceOf_under _ context ((ih item among).object path target)
    · rw [decodeExtensionList, decodeExtensionList, decodeExtensions_eq, decodeExtensions_eq]
      refine decodeItems_under start _ (fun item among path => ?_) path 0
      exact decodeExtension_under (ih item among)
  | object members ih =>
    exact ⟨decodeObject_under_of_members ih, fun _ _ _ => rfl, fun _ => rfl⟩

end Decoder

/-- The same error, of a value that is read from a start on. -/
def DecodeError.under (start : Path) (e : DecodeError) : DecodeError :=
  ⟨e.path.under start, e.fault⟩

namespace Decoder

variable {d : Decoder} {start path : Path} {json : Json} {target : Option NodeClass}
  {e : DecodeError}

/-- Reading the object at a path is reading it at the root, if as many steps are left. -/
theorem decodeObject_beyond (d : Decoder) (start : Path) (target : Option NodeClass) (json : Json) :
    (d.beyond start).decodeObject start target json =
      (d.decodeObject .root target json).mapError (·.moved start (d.beyond start).maxDepth) := by
  have moved := (relocates d start json).object .root target
  rwa [Path.under_root] at moved

/-- A fault that names a limit names the one that is in force. -/
theorem withLimit_of_decodeObject (fails : d.decodeObject path target json = .error e) :
    e.fault.withLimit d.maxDepth = e.fault := by
  have same := (relocates d .root json).object path target
  have unmoved : d.beyond .root = d := rfl
  rw [unmoved, Path.root_under, fails] at same
  exact (congrArg DecodeError.fault (Except.error.inj same)).symm

/-- Reading the object at a path is reading it at the root, if the limit is not exceeded at that
path: a higher one makes no difference there. -/
theorem decodeObject_under (unexceeded : ∀ limit, d.maxDepth ≤ limit →
      (Decoder.mk d.registry limit).decodeObject start target json =
        d.decodeObject start target json) :
    d.decodeObject start target json =
      (d.decodeObject .root target json).mapError (·.under start) := by
  have moved := decodeObject_beyond d start target json
  have raised : (d.beyond start).decodeObject start target json =
      d.decodeObject start target json := unexceeded _ (Nat.le_add_right _ _)
  rw [raised] at moved
  rw [moved]
  cases read : d.decodeObject .root target json with
  | ok o => rfl
  | error e =>
    rw [read] at moved
    -- The limit that the fault names is in force at both places, so it is the same one.
    have here := withLimit_of_decodeObject read
    have there : (e.fault.withLimit _).withLimit d.maxDepth = e.fault.withLimit _ :=
      withLimit_of_decodeObject moved
    rw [DecodeFault.withLimit_withLimit, here] at there
    show Except.error (DecodeError.moved start _ e) = .error (e.under start)
    rw [DecodeError.moved, ← there, DecodeError.under]

end Decoder

/-! ## Documents -/

/-- A document whose single root shares its members. -/
def Json.inlineRoot (contextUrl : String) (members : List (String × Json)) : Json :=
  .object (Members.insert members "@context" (.string contextUrl))

/-- A document that lists a single root. -/
def Json.listedRoot (contextUrl : String) (members : List (String × Json)) : Json :=
  .object [("@context", .string contextUrl), ("@graph", .list [.object members])]

/-- Where the single root that is listed stands. -/
def Path.firstRoot : Path := (Path.root.member "@graph").item 0

namespace Decoder

variable {d : Decoder} {members : List (String × Json)}

theorem decodeRoots_inlineRoot (noContext : Members.get? members "@context" = none)
    (noGraph : Members.get? members "@graph" = none) :
    d.decodeRoots (.inlineRoot d.registry.contextUrl members) =
      ([·]) <$> d.decodeObject .root none (.object members) := by
  have context : Members.get? (Members.insert members "@context"
      (.string d.registry.contextUrl)) "@context" = some (.string d.registry.contextUrl) := by
    rw [Members.get?_insert, if_pos rfl]
  have graph : Members.get? (Members.insert members "@context"
      (.string d.registry.contextUrl)) "@graph" = none := by
    rw [Members.get?_insert, if_neg (by decide), noGraph]
  have checked : d.checkContext (Members.insert members "@context"
      (.string d.registry.contextUrl)) = .ok () := by
    rw [checkContext, context]
    exact if_pos rfl
  rw [Json.inlineRoot, decodeRoots, checked, graph, Members.erase_insert noContext]
  show (d.decodeObject .root none (.object members) >>= fun o => .ok [o]) = _
  cases d.decodeObject .root none (.object members) <;> rfl

theorem decodeRoots_listedRoot (d : Decoder) (members : List (String × Json)) :
    d.decodeRoots (.listedRoot d.registry.contextUrl members) =
      ([·]) <$> d.decodeObject .firstRoot none (.object members) := by
  have checked : d.checkContext [("@context", .string d.registry.contextUrl),
      ("@graph", .list [.object members])] = .ok () := if_pos rfl
  rw [Json.listedRoot, decodeRoots, checked]
  show (d.decodeObject .firstRoot none (.object members) >>= fun o => .ok [o]) = _
  cases d.decodeObject .firstRoot none (.object members) <;> rfl

end Decoder

namespace Graph

variable {graph : Graph} {members : List (String × Json)}

theorem add_injective (graph : Graph) : Function.Injective fun o => graph.add ⟨none, o⟩ := by
  intro o o' same
  have roots := congrArg Graph.roots same
  simpa [add] using roots

theorem decode_inlineRoot (limit : Nat) (noContext : Members.get? members "@context" = none)
    (noGraph : Members.get? members "@graph" = none) :
    graph.decode limit (.inlineRoot graph.registry.contextUrl members) =
      (fun o => graph.add ⟨none, o⟩) <$>
        (Decoder.mk graph.registry limit).decodeObject .root none (.object members) := by
  have read := (Decoder.mk graph.registry limit).decodeRoots_inlineRoot noContext noGraph
  rw [decode, read]
  cases (Decoder.mk graph.registry limit).decodeObject .root none (.object members) <;> rfl

theorem decode_listedRoot (graph : Graph) (limit : Nat) (members : List (String × Json)) :
    graph.decode limit (.listedRoot graph.registry.contextUrl members) =
      (fun o => graph.add ⟨none, o⟩) <$>
        (Decoder.mk graph.registry limit).decodeObject .firstRoot none (.object members) := by
  have read := (Decoder.mk graph.registry limit).decodeRoots_listedRoot members
  rw [decode, read]
  cases (Decoder.mk graph.registry limit).decodeObject .firstRoot none (.object members) <;> rfl

/-- An object that has none of the two members of an envelope is read alike as the single root that
shares the members of its document and as the only root that is listed, if the document that lists
it does not exceed the limit: a higher one would make no difference. Either both documents add the
same root, or both fail at the same fault, and the path of the one error is that of the other behind
the two steps to the list. The same holds of every path: an object is read there as it is read at
the root. -/
theorem decode_inlineRoot_listedRoot (graph : Graph) (maxDepth : Nat)
    {members : List (String × Json)}
    (noContext : Members.get? members "@context" = none)
    (noGraph : Members.get? members "@graph" = none)
    (unexceeded : ∀ limit, maxDepth ≤ limit →
      graph.decode limit (.listedRoot graph.registry.contextUrl members) =
        graph.decode maxDepth (.listedRoot graph.registry.contextUrl members)) :
    ((∃ o,
        graph.decode maxDepth (.inlineRoot graph.registry.contextUrl members) =
          .ok (graph.add ⟨none, o⟩) ∧
        graph.decode maxDepth (.listedRoot graph.registry.contextUrl members) =
          .ok (graph.add ⟨none, o⟩)) ∨
      ∃ e : DecodeError,
        graph.decode maxDepth (.inlineRoot graph.registry.contextUrl members) = .error e ∧
        graph.decode maxDepth (.listedRoot graph.registry.contextUrl members) =
          .error ⟨⟨.name "@graph" :: .index 0 :: e.path.segments⟩, e.fault⟩) ∧
    ∀ start target json,
      (∀ limit, maxDepth ≤ limit →
        (Decoder.mk graph.registry limit).decodeObject start target json =
          (Decoder.mk graph.registry maxDepth).decodeObject start target json) →
      (Decoder.mk graph.registry maxDepth).decodeObject start target json =
        ((Decoder.mk graph.registry maxDepth).decodeObject .root target json).mapError
          (·.under start) := by
  have moves : ∀ start target json,
      (∀ limit, maxDepth ≤ limit →
        (Decoder.mk graph.registry limit).decodeObject start target json =
          (Decoder.mk graph.registry maxDepth).decodeObject start target json) →
      (Decoder.mk graph.registry maxDepth).decodeObject start target json =
        ((Decoder.mk graph.registry maxDepth).decodeObject .root target json).mapError
          (·.under start) :=
    fun start target json unexceeded =>
      (Decoder.mk graph.registry maxDepth).decodeObject_under unexceeded
  refine ⟨?_, moves⟩
  have same := moves .firstRoot none (.object members) fun limit le => by
    have read := unexceeded limit le
    rw [decode_listedRoot, decode_listedRoot] at read
    exact Outcome.map_injective graph.add_injective read
  rw [decode_inlineRoot maxDepth noContext noGraph, decode_listedRoot, same]
  cases (Decoder.mk graph.registry maxDepth).decodeObject .root none (.object members) with
  | ok o => exact .inl ⟨o, rfl, rfl⟩
  | error e => exact .inr ⟨e, rfl, rfl⟩

end Graph

namespace Sample

/-- A folder has a title and holds a folder. -/
def folder : ClassDecl where
  iri := "ex:Folder"
  compact := some "Folder"
  nodeKind := none
  idAlias := none
  isAbstract := false
  extensible := some true
  parents := []
  properties := [
    ⟨"title", "ex:title", some "title", .scalar .string, false, none, none, [], []⟩,
    ⟨"inside", "ex:inside", some "inside", .object "ex:Folder", false, none, none, [], []⟩]

def folderRegistry : Registry := (Registry.build "" [folder]).toOption.getD ⟨"", [], []⟩

/-- The members of a folder with a folder inside. -/
def nestedFolder (title : Json) : List (String × Json) :=
  [("@type", .string "Folder"),
    ("inside", .object [("@type", .string "Folder"), ("title", title)])]

end Sample

/-- A folder is read alike in both places, and if the title of the inner one is a number, that is
reported in both. -/
theorem Sample.nestedFolder_readAlike :
    (∃ o,
      (Graph.empty Sample.folderRegistry).decode 3
          (.inlineRoot "" (Sample.nestedFolder (.string "Old"))) =
        .ok ((Graph.empty Sample.folderRegistry).add ⟨none, o⟩) ∧
      (Graph.empty Sample.folderRegistry).decode 3
          (.listedRoot "" (Sample.nestedFolder (.string "Old"))) =
        .ok ((Graph.empty Sample.folderRegistry).add ⟨none, o⟩)) ∧
    ∃ e : DecodeError,
      (Graph.empty Sample.folderRegistry).decode 3
          (.inlineRoot "" (Sample.nestedFolder (.integer 7))) = .error e ∧
      e.path.text = ".inside.title" ∧
      (Graph.empty Sample.folderRegistry).decode 3
          (.listedRoot "" (Sample.nestedFolder (.integer 7))) =
        .error ⟨⟨.name "@graph" :: .index 0 :: e.path.segments⟩, e.fault⟩ := by
  obtain ⟨filed, reads⟩ : ∃ graph, ∀ more, (Graph.empty Sample.folderRegistry).decode (more + 3)
      (.listedRoot "" (Sample.nestedFolder (.string "Old"))) = .ok graph := ⟨_, fun _ => rfl⟩
  obtain ⟨unfiled, stops⟩ : ∃ e, ∀ more, (Graph.empty Sample.folderRegistry).decode (more + 3)
      (.listedRoot "" (Sample.nestedFolder (.integer 7))) = .error e := ⟨_, fun _ => rfl⟩
  obtain ⟨old, -⟩ := Graph.decode_inlineRoot_listedRoot (.empty Sample.folderRegistry) 3
    (show Members.get? (Sample.nestedFolder (.string "Old")) "@context" = none from rfl) rfl
    fun limit le => by
      obtain ⟨more, rfl⟩ := Nat.exists_eq_add_of_le' le
      exact (reads more).trans (reads 0).symm
  obtain ⟨numbered, -⟩ := Graph.decode_inlineRoot_listedRoot (.empty Sample.folderRegistry) 3
    (show Members.get? (Sample.nestedFolder (.integer 7)) "@context" = none from rfl) rfl
    fun limit le => by
      obtain ⟨more, rfl⟩ := Nat.exists_eq_add_of_le' le
      exact (stops more).trans (stops 0).symm
  constructor
  · rcases old with read | ⟨e, fails, -⟩
    · exact read
    · cases fails
  · rcases numbered with ⟨o, read, -⟩ | ⟨e, fails, fails'⟩
    · cases read
    · refine ⟨e, fails, ?_, fails'⟩
      cases fails
      rfl

end ShapedGraph

import ShapedGraph.Proofs.Envelope
import ShapedGraph.Proofs.Limits
import ShapedGraph.Proofs.RoundTrip

/-! Documents of closed models, in which no class allows members that are not declared. What was
read there stands no deeper in what it is written as, so the document of a graph that was read is
read again under the same limit, as the same graph. Only a graph without roots is written as
something that is no document. -/

namespace ShapedGraph

/-- No class allows members that are not declared. -/
def Registry.Closed (registry : Registry) : Prop :=
  ∀ c ∈ registry.classes, c.isExtensible = false

instance (registry : Registry) : Decidable registry.Closed :=
  inferInstanceAs (Decidable (∀ c ∈ registry.classes, c.isExtensible = false))

theorem Reference.pruned_eq_self {target : Reference}
    (inside : ∀ x ∈ target.objects, x.pruned = x) : target.pruned = target := by
  cases target with
  | unset | iri => rfl
  | object handle o => rw [pruned, inside o List.mem_cons_self]

theorem Slot.pruned_eq_self {slot : Slot} (inside : ∀ x ∈ slot.objects, x.pruned = x) :
    slot.pruned = slot := by
  cases slot with
  | scalar | list => rfl
  | reference target => rw [pruned, Reference.pruned_eq_self inside]
  | references targets =>
    have each : targets.map Reference.pruned = targets := by
      refine (List.map_congr_left fun target among => ?_).trans (List.map_id targets)
      exact Reference.pruned_eq_self fun x hx => inside x (List.mem_flatMap.mpr ⟨target, among, hx⟩)
    rw [pruned, prunedReferences_eq, each]

namespace Object

variable {registry : Registry} {searched unbounded : Prop} {target : Option NodeClass} {o : Object}

theorem Sound.extensions_eq_nil (closed : registry.Closed)
    (sound : o.Sound registry searched unbounded target) : o.extensions = [] := by
  refine List.eq_nil_iff_forall_not_mem.mpr fun entry there => ?_
  obtain ⟨role, -⟩ := sound.filled.extensions entry.1 entry.2 there
  have extensible := (NodeClass.Means.of_memberRole role).2
  exact absurd (extensible.symm.trans (closed _ sound.registered)) (by decide)

/-- In a closed model no class is searched for and no number is kept that is out of range. -/
theorem Sound.settled (closed : registry.Closed)
    (sound : o.Sound registry searched unbounded target) : o.Sound registry False False target := by
  have none := sound.extensions_eq_nil closed
  have own := closed _ sound.registered
  obtain ⟨type, observed, chosen⟩ := sound.typed
  refine ⟨sound.registered, ⟨type, observed, ?_⟩, { sound.filled with extensions := ?_ }⟩
  · cases chosen with
    | named known fits concrete => exact .named known fits concrete
    | wanted _ _ extensible => cases extensible.symm.trans own
    | found _ _ _ _ candidate =>
      cases (Registry.mem_candidates.mp candidate).2.1.symm.trans own
  · rw [none]
    exact nofun

theorem settled_of_closed (closed : registry.Closed)
    (sound : o.SoundThroughout registry searched unbounded target) :
    o.SoundThroughout registry False False target := by
  induction sound with
  | intro here _ ih => exact .intro (here.settled closed) ih

/-- In a closed model there are no undeclared members to be dropped. -/
theorem pruned_of_closed (closed : registry.Closed)
    (sound : o.SoundThroughout registry searched unbounded target) : o.pruned = o := by
  induction sound with
  | @intro target o here _ ih =>
    have none := here.extensions_eq_nil closed
    have each : o.slots.map Slot.pruned = o.slots := by
      refine (List.map_congr_left fun slot hs => ?_).trans (List.map_id o.slots)
      obtain ⟨place, hi⟩ := List.mem_iff_getElem?.mp hs
      obtain ⟨p, hp⟩ := here.filled.shaped.getElem?_layout hi
      have there := List.mem_of_getElem? (getElem?_properties.mpr ⟨hp, hi⟩)
      exact Slot.pruned_eq_self fun x hx => ih _ x (.inSlot there hx)
    obtain ⟨cls, id, observedType, slots, extensions⟩ := o
    cases none
    rw [pruned, prunedSlots_eq, each]
    rfl

end Object

/-! ## How deep an object is written -/

theorem Json.staysWithin_mono {limit length length' : Nat} (le : length' ≤ length) {json : Json}
    (within : json.staysWithin limit length = true) : json.staysWithin limit length' = true := by
  induction json using Json.induct generalizing length length' with
  | null | bool | integer | float | string => rfl
  | list items ih =>
    rw [staysWithin_list] at within ⊢
    exact fun item among => ih item among (by omega) (within item among)
  | object members ih =>
    rw [staysWithin_object] at within ⊢
    exact ⟨by omega, fun m among => ih m among (by omega) (within.2 m among)⟩

theorem ScalarKind.staysWithin_encode (kind : ScalarKind) (context : Context) (value : Scalar)
    (limit length : Nat) : (kind.encode context value).staysWithin limit length = true := by
  cases value <;> rfl

theorem mem_encodeReferences {targets : List Reference} {context : Context} {seen : Seen}
    {item : Json} (h : item ∈ (encodeReferences targets context seen).1) :
    ∃ target ∈ targets, ∃ seen', item = (target.encode context seen').1 := by
  induction targets generalizing seen with
  | nil => cases h
  | cons target targets ih =>
    rw [encodeReferences] at h
    rcases List.mem_cons.mp h with rfl | h
    · exact ⟨target, List.mem_cons_self, seen, rfl⟩
    · obtain ⟨other, among, seen', same⟩ := ih h
      exact ⟨other, List.mem_cons_of_mem _ among, seen', same⟩

theorem mem_encodeExtensionValues {values : List Extension} {seen : Seen} {item : Json}
    (h : item ∈ (encodeExtensionValues values seen).1) :
    ∃ value ∈ values, ∃ seen', item = (value.encode seen').1 := by
  induction values generalizing seen with
  | nil => cases h
  | cons value values ih =>
    rw [encodeExtensionValues] at h
    rcases List.mem_cons.mp h with rfl | h
    · exact ⟨value, List.mem_cons_self, seen, rfl⟩
    · obtain ⟨other, among, seen', same⟩ := ih h
      exact ⟨other, List.mem_cons_of_mem _ among, seen', same⟩

theorem exists_item_of_mem {α : Type} {decode : Path → Json → Decoded α} {path : Path}
    {position : Nat} {items : List Json} {values : List α}
    (h : decodeItems decode path position items = .ok values) {value : α} (hv : value ∈ values) :
    ∃ item ∈ items, ∃ position', decode (path.item position') item = .ok value := by
  obtain ⟨i, found⟩ := List.mem_iff_getElem?.mp hv
  obtain ⟨item, there, read⟩ := exists_item_of_decodeItems_value h found
  exact ⟨item, List.mem_of_getElem? there, position + i, read⟩

namespace Decoder

variable {d : Decoder} {path : Path} {target : Option NodeClass} {json : Json} {context : Context}

/-- A reference that was read is written within a limit if an object that it was read as is. -/
theorem staysWithin_encode_of_referenceOf {object : Unit → Decoded Object} {reference : Reference}
    {limit length : Nat} (read : referenceOf context path json object = .ok reference)
    (within : ∀ o, object () = .ok o → ∀ seen,
      (Json.object (o.encode seen).1).staysWithin limit length = true) (seen : Seen) :
    (reference.encode context seen).1.staysWithin limit length = true := by
  unfold referenceOf at read
  split at read
  · obtain ⟨iri, -, rfl⟩ := Outcome.map_eq_ok.mp read
    rfl
  · obtain ⟨o, inner, rfl⟩ := Outcome.map_eq_ok.mp read
    rw [encode_unshared]
    exact within o inner seen

/-- What was read into a slot is written within a limit if the objects and the lists of references
among it are. -/
theorem ReadsSlot.staysWithin_encode {p : Property} {slot : Slot} {limit length : Nat}
    (reads : d.ReadsSlot p path json slot)
    (object : ∀ o, d.decodeObject path (d.registry.targetOf p) json = .ok o → ∀ seen,
      (Json.object (o.encode seen).1).staysWithin limit length = true)
    (references : ∀ targets,
      d.decodeReferenceList p.context (d.registry.targetOf p) path json = .ok targets → ∀ seen,
        (Json.list (encodeReferences targets p.context seen).1).staysWithin limit length = true)
    (seen : Seen) : (slot.encode p seen).1.staysWithin limit length = true := by
  cases reads with
  | scalar holds =>
    rw [Slot.encode]
    simp only [holds]
    exact ScalarKind.staysWithin_encode _ _ _ _ _
  | list holds =>
    rw [Slot.encode]
    simp only [holds]
    refine Json.staysWithin_list.mpr fun item among => ?_
    obtain ⟨value, -, rfl⟩ := List.mem_map.mp among
    exact ScalarKind.staysWithin_encode _ _ _ _ _
  | reference _ _ read => exact staysWithin_encode_of_referenceOf read object seen
  | references _ _ read => exact references _ read seen

/-- What is read from a value is written no deeper than it was read. -/
structure Levels (d : Decoder) (json : Json) : Prop where
  object : ∀ path target o, (∀ t, target = some t → t ∈ d.registry.classes) →
    d.decodeObject path target json = .ok o → ∀ seen,
      (Json.object (o.encode seen).1).staysWithin d.maxDepth path.length = true
  references : ∀ context path target targets, (∀ t, target = some t → t ∈ d.registry.classes) →
    d.decodeReferenceList context target path json = .ok targets → ∀ seen,
      (Json.list (encodeReferences targets context seen).1).staysWithin d.maxDepth path.length =
        true

theorem staysWithin_of_slot {p : Property} {slot : Slot} (levels : d.Levels json)
    (reads : d.ReadsSlot p path json slot) (seen : Seen) :
    (slot.encode p seen).1.staysWithin d.maxDepth path.length = true := by
  have registered : ∀ t, d.registry.targetOf p = some t → t ∈ d.registry.classes :=
    fun t => Registry.mem_of_targetOf
  exact reads.staysWithin_encode (fun o => levels.object path _ o registered)
    (fun targets => levels.references _ path _ targets registered) seen

theorem levels_object (closed : d.registry.Closed) {members : List (String × Json)}
    (each : ∀ m ∈ members, d.Levels m.2) (path : Path) (target : Option NodeClass) (o : Object)
    (registered : ∀ t, target = some t → t ∈ d.registry.classes)
    (read : d.decodeObject path target (.object members) = .ok o) (seen : Seen) :
    (Json.object (o.encode seen).1).staysWithin d.maxDepth path.length = true := by
  have sound := (readsSoundly d True True (.object members) (.inl trivial)).object path target o
    registered (.inl trivial) read
  have none := sound.here.extensions_eq_nil closed
  have here := length_le_of_decodeObject read
  obtain ⟨type, cls, -, read⟩ := exists_class_of_decodeObject read
  obtain ⟨rfl, -⟩ := typed_of_decodeMembers read
  refine Json.staysWithin_object.mpr ⟨here, fun m among => ?_⟩
  cases Object.writes_of_mem_encode among with
  | type | id => rfl
  | @slot p slot seen' there set =>
    obtain ⟨place, hi⟩ := List.mem_iff_getElem?.mp there
    obtain ⟨hp, hs⟩ := Object.getElem?_properties.mp hi
    obtain ⟨m, hm, brought⟩ := exists_member_of_isSet read hs set
    cases readMember_eq_ok.mp brought with
    | slot _ hp' reads =>
      cases hp'.symm.trans hp
      simpa using staysWithin_of_slot (each m hm) reads seen'
  | extension _ there =>
    rw [none] at there
    cases there

/-- In a closed model everything is written no deeper than it was read. -/
theorem levels (closed : d.registry.Closed) (json : Json) : d.Levels json := by
  induction json using Json.induct with
  | null | bool | integer | float | string =>
    refine ⟨fun path target o _ read => ?_, fun _ _ _ _ _ read => ?_⟩
    · cases readsObject_of_decodeObject read
    · cases read
  | list items each =>
    refine ⟨fun path target o _ read => ?_, fun context path target targets registered read => ?_⟩
    · cases readsObject_of_decodeObject read
    · intro seen
      rw [decodeReferenceList, decodeReferences_eq] at read
      refine Json.staysWithin_list.mpr fun written among => ?_
      obtain ⟨reference, hr, seen', rfl⟩ := mem_encodeReferences among
      obtain ⟨item, hi, position, read'⟩ := exists_item_of_mem read hr
      simpa using staysWithin_encode_of_referenceOf read'
        (fun o => (each item hi).object _ target o registered) seen'
  | object members each =>
    refine ⟨fun path target o registered read => ?_, fun _ _ _ _ _ read => ?_⟩
    · exact levels_object closed each path target o registered read
    · cases read

/-! ## Documents -/

/-- Every root of a document was read somewhere, and at a path of two steps if there are several. -/
theorem exists_path_of_decodeRoots {roots : List Object} (h : d.decodeRoots json = .ok roots) :
    ∀ root ∈ roots, ∃ path item, d.decodeObject path none item = .ok root ∧
      (2 ≤ roots.length → path.length = 2) := by
  cases json with
  | object members =>
    rw [decodeRoots] at h
    obtain ⟨-, -, h⟩ := Outcome.bind_eq_ok.mp h
    cases listed : Members.get? members "@graph" with
    | some graph =>
      simp only [listed] at h
      split at h
      · cases h
      cases graph with
      | list items =>
        intro root among
        obtain ⟨item, -, position, read⟩ := exists_item_of_mem h among
        exact ⟨_, item, read, fun _ => by simp⟩
      | _ => cases h
    | none =>
      simp only [listed] at h
      obtain ⟨o, read, h⟩ := Outcome.bind_eq_ok.mp h
      cases h
      intro root among
      cases List.mem_singleton.mp among
      exact ⟨_, _, read, fun several => absurd several (by simp)⟩
  | _ => cases h

/-- A root of a closed model is read again, wherever documents put it that have as many roots. -/
theorem reread_root (closed : d.registry.Closed) (unambiguous : d.registry.Unambiguous)
    {roots : List Object} (h : d.decodeRoots json = .ok roots) {root : Object} (hr : root ∈ roots)
    (path : Path) (shallow : path.length = 0 ∨ 2 ≤ roots.length ∧ path.length = 2) (seen : Seen) :
    d.decodeObject path none (.object (root.encode seen).1) = .ok root := by
  have unasked : ∀ t, none = some t → t ∈ d.registry.classes := nofun
  obtain ⟨path', item, read, two⟩ := exists_path_of_decodeRoots h root hr
  have sound := (readsSoundly d True True item (.inl trivial)).object path' none root unasked
    (.inl trivial) read
  have written := (levels closed item).object path' none root unasked read seen
  have higher : path.length ≤ path'.length := by
    rcases shallow with top | ⟨several, listed⟩
    · omega
    · have := two several
      omega
  obtain ⟨o, again, same⟩ := rereads unambiguous (Object.settled_of_closed closed sound) path seen
    (Json.staysWithin_mono higher written)
  rw [again, same not_false, Object.pruned_of_closed closed sound]

/-- No root of a closed model has a member with a key of envelopes. -/
theorem get?_encode_root (closed : d.registry.Closed)
    (spares : ∀ c ∈ d.registry.classes, c.SparesEnvelope) {roots : List Object}
    (h : d.decodeRoots json = .ok roots) {root : Object} (hr : root ∈ roots) {key : String}
    (envelope : key ∈ envelopeKeys) (seen : Seen) :
    Members.get? (root.encode seen).1 key = none := by
  have sound := sound_of_decodeRoots h root hr
  refine Object.get?_encode_eq_none (spares _ sound.here.registered) envelope ?_
  rintro ⟨values, there, -⟩
  rw [sound.here.extensions_eq_nil closed] at there
  cases there

/-- A single object beside a context is read as the one root. -/
theorem decodeRoots_lone {members : Members Json} {root : Object} (sorted : members.Sorted)
    (context : Members.get? members "@context" = none)
    (unlisted : Members.get? members "@graph" = none)
    (read : d.decodeObject .root none (.object members) = .ok root) :
    d.decodeRoots (.object
      (Members.union [("@context", .string d.registry.contextUrl)] members)) = .ok [root] := by
  let document : Members Json :=
    Members.union [("@context", .string d.registry.contextUrl)] members
  have found : Members.get? document "@context" = some (.string d.registry.contextUrl) := by
    rw [Members.get?_union sorted, context]
    rfl
  have listless : Members.get? document "@graph" = none := by
    rw [Members.get?_union sorted, unlisted]
    rfl
  have checked : d.checkContext document = .ok () := by
    rw [checkContext, found]
    exact if_pos rfl
  have erased : Members.erase document "@context" = members := Members.erase_union sorted context _
  show d.decodeRoots (.object document) = .ok [root]
  unfold decodeRoots
  simp only [checked, listless, erased, read, bind, Except.bind]

/-- Objects that are listed beside a context are read as the roots. -/
theorem decodeRoots_listed {items : List Json} {roots : List Object}
    (read : decodeItems (fun path json => d.decodeObject path none json)
      (Path.root.member "@graph") 0 items = .ok roots) :
    d.decodeRoots (.object (Members.insert [("@context", .string d.registry.contextUrl)] "@graph"
      (.list items))) = .ok roots := by
  have checked : d.checkContext [("@context", .string d.registry.contextUrl),
      ("@graph", .list items)] = .ok () := if_pos rfl
  show d.decodeRoots (.object [("@context", .string d.registry.contextUrl),
    ("@graph", .list items)]) = .ok roots
  rw [decodeRoots, checked]
  exact read

/-- A context alone is no document. -/
theorem decodeRoots_bare (d : Decoder) :
    d.decodeRoots (.object [("@context", .string d.registry.contextUrl)]) =
      .error ⟨.root, .missingType⟩ := by
  have checked : d.checkContext [("@context", .string d.registry.contextUrl)] = .ok () := if_pos rfl
  have within : ¬d.maxDepth < Path.root.length := Nat.not_lt_zero _
  have untyped : d.decodeObject .root none (.object []) = .error ⟨.root, .missingType⟩ := by
    rw [decodeObject, if_neg within]
    rfl
  rw [decodeRoots, checked]
  show (d.decodeObject .root none (.object []) >>= fun o => .ok [o]) = _
  rw [untyped]
  rfl

theorem decodeItems_encodeRoots {roots : List Object} {path : Path}
    (each : ∀ root ∈ roots, ∀ position seen, d.decodeObject (path.item position) none
      (.object (root.encode seen).1) = .ok root) (position : Nat) (seen : Seen) :
    decodeItems (fun path json => d.decodeObject path none json) path position
      ((Graph.encodeRoots (roots.map (⟨none, ·⟩)) seen).map .object) = .ok roots := by
  induction roots generalizing position seen with
  | nil => rfl
  | cons root roots ih =>
    obtain ⟨first, others⟩ := List.forall_mem_cons.mp each
    rw [List.map_cons, Graph.encodeRoots, List.map_cons]
    exact decodeItems_cons (first ..) (ih others ..)

end Decoder

namespace Graph

/-- In a closed model the document of a graph that was read is read again as the same graph, under
the same limit, unless the graph has no roots: then what is written has no object to be read. -/
theorem decode_toJson_of_closed {registry : Registry} {maxDepth : Nat} {document : Json}
    {graph : Graph} (closed : registry.Closed) (unambiguous : registry.Unambiguous)
    (spares : ∀ c ∈ registry.classes, c.SparesEnvelope)
    (read : (empty registry).decode maxDepth document = .ok graph) :
    (graph.roots ≠ [] → (empty registry).decode maxDepth graph.toJson = .ok graph) ∧
      (graph.roots = [] →
        (empty registry).decode maxDepth graph.toJson = .error ⟨.root, .missingType⟩) := by
  obtain ⟨roots, decoded, rfl⟩ := Outcome.map_eq_ok.mp read
  let d : Decoder := ⟨registry, maxDepth⟩
  have again : ∀ root ∈ roots, ∀ path : Path,
      path.length = 0 ∨ 2 ≤ roots.length ∧ path.length = 2 → ∀ seen,
        d.decodeObject path none (.object (root.encode seen).1) = .ok root :=
    fun root among => Decoder.reread_root closed unambiguous decoded among
  have roots_eq : ((empty registry).addAll roots).roots = roots.map (⟨none, ·⟩) :=
    List.nil_append _
  rw [roots_eq]
  constructor
  · intro rooted
    refine Outcome.map_eq_ok.mpr ⟨roots, ?_, rfl⟩
    rcases roots with _ | ⟨root, _ | ⟨second, rest⟩⟩
    · exact absurd rfl rooted
    · have lacks {key : String} (envelope : key ∈ envelopeKeys) :
          Members.get? (root.encode []).1 key = none :=
        Decoder.get?_encode_root closed spares decoded List.mem_cons_self envelope []
      exact Decoder.decodeRoots_lone (root.sorted_encode []) (lacks (.head _))
        (lacks (.tail _ (.head _))) (again root List.mem_cons_self .root (.inl rfl) [])
    · have several : 2 ≤ (root :: second :: rest).length := Nat.le_add_left 2 _
      let seen : Seen := ((root :: second :: rest).map (Root.mk none)).filterMap (·.handle)
      have listed : decodeItems (fun path json => d.decodeObject path none json)
          (Path.root.member "@graph") 0
          ((encodeRoots ((root :: second :: rest).map (⟨none, ·⟩)) seen).map .object) =
            .ok (root :: second :: rest) := by
        refine Decoder.decodeItems_encodeRoots (fun o among position seen => ?_) 0 seen
        exact again o among _ (.inr ⟨several, by simp⟩) seen
      exact Decoder.decodeRoots_listed listed
  · intro rootless
    rw [List.map_eq_nil_iff] at rootless
    subst rootless
    exact Outcome.map_eq_error.mpr (Decoder.decodeRoots_bare d)

end Graph

namespace Sample

/-- A stamp has a price, and may be printed together with another. -/
def stamp : ClassDecl where
  iri := "ex:Stamp"
  compact := some "Stamp"
  nodeKind := none
  idAlias := none
  isAbstract := false
  extensible := none
  parents := []
  properties := [
    ⟨"price", "ex:price", some "price", .scalar .float, false, none, none, [], []⟩,
    ⟨"beside", "ex:beside", some "beside", .object "ex:Stamp", false, none, none, [], []⟩]

def stampRegistry : Registry := (Registry.build "" [stamp]).toOption.getD ⟨"", [], []⟩

/-- A document that lists one stamp, which is printed together with another. -/
def stampSheet : Json := .object [("@context", .string ""), ("@graph", .list [.object
  [("@type", .string "Stamp"), ("beside", .object [("@type", .string "ex:Stamp")]),
    ("price", .integer 2)]])]

/-- A document that lists no stamps. -/
def noStamps : Json := .object [("@context", .string ""), ("@graph", .list [])]

end Sample

/-- A document without roots can be read, and what is written of it cannot. -/
theorem Sample.noStamps_lost : ∃ graph,
    Registry.build "" [Sample.stamp] = .ok Sample.stampRegistry ∧
      Sample.stampRegistry.Closed ∧ Sample.stampRegistry.Unambiguous ∧
        (∀ c ∈ Sample.stampRegistry.classes, c.SparesEnvelope) ∧
          (Graph.empty Sample.stampRegistry).decode 9 Sample.noStamps = .ok graph ∧
            (Graph.empty Sample.stampRegistry).decode 9 graph.toJson =
              .error ⟨.root, .missingType⟩ :=
  ⟨_, rfl, by decide, by decide, by decide, rfl, rfl⟩

theorem Sample.stampSheet_readAgain : ∃ graph,
    (Graph.empty Sample.stampRegistry).decode 3 Sample.stampSheet = .ok graph ∧
      graph.roots ≠ [] ∧ (Graph.empty Sample.stampRegistry).decode 3 graph.toJson = .ok graph := by
  have closed : Sample.stampRegistry.Closed := by decide
  have unambiguous : Sample.stampRegistry.Unambiguous := by decide
  have spares : ∀ c ∈ Sample.stampRegistry.classes, c.SparesEnvelope := by decide
  obtain ⟨graph, read, rooted⟩ : ∃ graph,
      (Graph.empty Sample.stampRegistry).decode 3 Sample.stampSheet = .ok graph ∧
        graph.roots ≠ [] := ⟨_, rfl, List.cons_ne_nil _ _⟩
  obtain ⟨again, -⟩ := Graph.decode_toJson_of_closed closed unambiguous spares read
  exact ⟨graph, read, rooted, again rooted⟩

end ShapedGraph

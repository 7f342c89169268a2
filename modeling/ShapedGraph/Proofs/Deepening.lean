import ShapedGraph.Proofs.Arrival
import ShapedGraph.Proofs.Unexceeded

/-! How much deeper a document gets when it is written again. Values of members that are not
declared are written as lists, so an object that stood alone under such a key stands one step deeper
in what is written; nothing else gets deeper. Where no key means two things in a class, what is
written can only exceed a limit by these steps. -/

namespace ShapedGraph

theorem staysWithin_encode_float (x : Binary64) (limit length : Nat) (seen : Seen) :
    ((Extension.float x).encode seen).1.staysWithin limit length = true := by
  cases x <;> rfl

namespace Decoder

variable {d : Decoder} {limit length : Nat} {path : Path} {target : Option NodeClass} {json : Json}
  {members : List (String × Json)} {key : String} {o : Object} {context : Context}

/-! ## How deep an object is written -/

/-- Every object in a value that is read stands within the limit if the value is put at a path of
`length` steps and each object that was alone under an undeclared key goes one step down. -/
def Fits (d : Decoder) (limit length : Nat) (path : Path) (target : Option NodeClass)
    (json : Json) : Prop :=
  ∀ place asked members wraps, d.Arrives path target json place asked (.object members) wraps →
    length + place.length + wraps ≤ limit

theorem Fits.here (fits : d.Fits limit length path target (.object members)) : length ≤ limit :=
  fits [] target members 0 .here

theorem Fits.item {items : List Json} {position : Nat} {item : Json}
    (fits : d.Fits limit length path target (.list items)) (there : items[position]? = some item) :
    d.Fits limit (length + 1) (path.item position) target item := by
  intro place asked members wraps arrives
  have bound := fits _ asked members wraps (.item there arrives)
  simp only [List.length_cons] at bound
  omega

theorem Fits.member {value : Json} (fits : d.Fits limit length path target (.object members))
    (read : d.decodeObject path target (.object members) = .ok o)
    (there : Members.get? members key = some value) :
    d.Fits limit (length + 1) (path.member key) (d.registry.memberTarget o.cls key) value := by
  intro place asked inner wraps arrives
  by_cases wrapped : o.cls.memberRole key = .undeclared ∧ ∃ inner, value = .object inner
  · obtain ⟨role, inner, rfl⟩ := wrapped
    have bound := fits _ asked _ _ (.wrapped read there role arrives)
    simp only [List.length_cons] at bound
    omega
  · have plain : o.cls.memberRole key = .undeclared → ∀ inner, value ≠ .object inner :=
      fun role inner same => wrapped ⟨role, inner, same⟩
    have bound := fits _ asked _ _ (.member read there plain arrives)
    simp only [List.length_cons] at bound
    omega

/-- An object that is alone under an undeclared key has two steps to itself. -/
theorem Fits.wrapped {inner : List (String × Json)}
    (fits : d.Fits limit length path target (.object members))
    (read : d.decodeObject path target (.object members) = .ok o)
    (there : Members.get? members key = some (.object inner))
    (role : o.cls.memberRole key = .undeclared) :
    d.Fits limit (length + 2) (path.member key) none (.object inner) := by
  intro place asked inside wraps arrives
  rw [← Registry.memberTarget_of_undeclared role] at arrives
  have bound := fits _ asked inside _ (.wrapped read there role arrives)
  simp only [List.length_cons] at bound
  omega

/-- What is read from a value is written no deeper than the value was, but for the lists that are
put around single objects. -/
structure WritesWithin (d : Decoder) (json : Json) : Prop where
  object : ∀ path target o limit length, d.decodeObject path target json = .ok o →
    d.Fits limit length path target json → ∀ seen,
      (Json.object (o.encode seen).1).staysWithin limit length = true
  references : ∀ context path target targets limit length,
    d.decodeReferenceList context target path json = .ok targets →
      d.Fits limit length path target json → ∀ seen,
        (Json.list (encodeReferences targets context seen).1).staysWithin limit length = true
  value : ∀ path value limit length, d.decodeExtension path json = .ok value →
    d.Fits limit length path none json → ∀ seen,
      (value.encode seen).1.staysWithin limit length = true
  values : ∀ path values limit length, d.decodeExtensionList path json = .ok values →
    d.Fits limit length path none json → ∀ seen,
      (Json.list (encodeExtensionValues values seen).1).staysWithin limit length = true

theorem writesWithin_of_readSlot {p : Property} {slot : Slot} (writes : d.WritesWithin json)
    (reads : d.ReadsSlot p path json slot)
    (fits : d.Fits limit length path (d.registry.targetOf p) json) (seen : Seen) :
    (slot.encode p seen).1.staysWithin limit length = true :=
  reads.staysWithin_encode (fun o read => writes.object path _ o limit length read fits)
    (fun targets read => writes.references _ path _ targets limit length read fits) seen

/-- The values of an undeclared member are written as a list, which puts a single object one step
down. -/
theorem writesWithin_of_readExtensions {values : List Extension} (writes : d.WritesWithin json)
    (read : d.readExtensions path json = .ok values)
    (fits : d.Fits limit length path none json)
    (lone : ∀ inner, json = .object inner → d.Fits limit (length + 1) path none json)
    (seen : Seen) :
    (Json.list (encodeExtensionValues values seen).1).staysWithin limit length = true := by
  unfold readExtensions extensionsOf at read
  split at read
  · exact writes.values path values limit length read fits seen
  · rename_i notList
    obtain ⟨value, first, rfl⟩ := Outcome.map_eq_ok.mp read
    have deeper : d.Fits limit (length + 1) path none json := by
      cases json with
      | object inner => exact lone inner rfl
      | list items => exact absurd rfl (notList items)
      | _ =>
        intro place asked members wraps arrives
        cases arrives
    refine Json.staysWithin_list.mpr fun item among => ?_
    obtain ⟨_, hv, seen', rfl⟩ := mem_encodeExtensionValues among
    obtain rfl := List.mem_singleton.mp hv
    exact writes.value path _ limit (length + 1) first deeper seen'

theorem writesWithin_of_members (sorted : Members.Sorted members)
    (each : ∀ m ∈ members, d.WritesWithin m.2)
    (read : d.decodeObject path target (.object members) = .ok o)
    (fits : d.Fits limit length path target (.object members)) (seen : Seen) :
    (Json.object (o.encode seen).1).staysWithin limit length = true := by
  obtain ⟨type, cls, -, reads⟩ := exists_class_of_decodeObject read
  obtain ⟨rfl, -⟩ := typed_of_decodeMembers reads
  refine Json.staysWithin_object.mpr ⟨fits.here, fun m among => ?_⟩
  cases Object.writes_of_mem_encode among with
  | type | id => rfl
  | @slot p slot seen' there set =>
    obtain ⟨place, hi⟩ := List.mem_iff_getElem?.mp there
    obtain ⟨hp, hs⟩ := Object.getElem?_properties.mp hi
    obtain ⟨⟨key, value⟩, hm, brought⟩ := exists_member_of_isSet reads hs set
    cases readMember_eq_ok.mp brought with
    | slot role hp' inner =>
      cases hp'.symm.trans hp
      have inside := fits.member read (Members.get?_of_mem sorted hm)
      rw [Registry.memberTarget_of_declared role hp] at inside
      exact writesWithin_of_readSlot (each _ hm) inner inside seen'
  | @extension key values seen' there nonempty =>
    obtain ⟨⟨key', value⟩, hm, brought⟩ := exists_member_of_extension reads there
    cases readMember_eq_ok.mp brought with
    | extension role inner =>
      have found := Members.get?_of_mem sorted hm
      have inside := fits.member read found
      rw [Registry.memberTarget_of_undeclared role] at inside
      refine writesWithin_of_readExtensions (each _ hm) inner inside ?_ seen'
      rintro inner rfl
      exact fits.wrapped read found role

/-- From a value that is neither a list nor an object nothing is read that has objects in it. -/
theorem writesWithin_leaf (notList : ∀ items, json ≠ .list items)
    (notObject : ∀ members, json ≠ .object members) : d.WritesWithin json where
  object path target o limit length read := by
    cases readsObject_of_decodeObject read <;> exact absurd rfl (notObject _)
  references context path target targets limit length read := by
    cases json <;> first
      | exact absurd rfl (notList _)
      | cases read
  value path value limit length read _ seen := by
    cases readsValue_of_decodeExtension read with
    | object => exact absurd rfl (notObject _)
    | list => exact absurd rfl (notList _)
    | float | large => exact staysWithin_encode_float ..
    | string | boolean | integer => rfl
  values path values limit length read := by
    cases json <;> first
      | exact absurd rfl (notList _)
      | cases read

/-- Everything is written as deep as it was read, but for the lists around single objects, by
induction on what is inside a value. -/
theorem writesWithin (d : Decoder) (json : Json) (ordered : json.Ordered) :
    d.WritesWithin json := by
  induction json using Json.induct with
  | null | bool | integer | float | string => exact writesWithin_leaf (by simp) (by simp)
  | list items ih =>
    have each : ∀ item ∈ items, d.WritesWithin item := fun item among =>
      ih item among (by cases ordered with | list each => exact each item among)
    have values : ∀ path values limit length, d.decodeExtensions path 0 items = .ok values →
        d.Fits limit length path none (.list items) → ∀ seen,
          (Json.list (encodeExtensionValues values seen).1).staysWithin limit length = true := by
      intro path values limit length read fits seen
      rw [decodeExtensions_eq] at read
      refine Json.staysWithin_list.mpr fun written among => ?_
      obtain ⟨value, hv, seen', rfl⟩ := mem_encodeExtensionValues among
      obtain ⟨i, hi⟩ := List.mem_iff_getElem?.mp hv
      obtain ⟨item, there, first⟩ := exists_item_of_decodeItems_value read hi
      rw [Nat.zero_add] at first
      exact (each item (List.mem_of_getElem? there)).value _ _ _ _ first (fits.item there) seen'
    refine ⟨fun _ _ _ _ _ read => ?_,
      fun context path target targets limit length read fits seen => ?_,
      fun path value limit length read fits seen => ?_, values⟩
    · cases readsObject_of_decodeObject read
    · rw [decodeReferenceList, decodeReferences_eq] at read
      refine Json.staysWithin_list.mpr fun written among => ?_
      obtain ⟨reference, hr, seen', rfl⟩ := mem_encodeReferences among
      obtain ⟨i, hi⟩ := List.mem_iff_getElem?.mp hr
      obtain ⟨item, there, first⟩ := exists_item_of_decodeItems_value read hi
      rw [Nat.zero_add] at first
      exact staysWithin_encode_of_referenceOf first (fun o read =>
        (each item (List.mem_of_getElem? there)).object _ _ o limit _ read (fits.item there)) seen'
    · obtain ⟨inner, reads, rfl⟩ := Outcome.map_eq_ok.mp read
      rw [Extension.encode]
      exact values path inner limit length reads fits seen
  | object members ih =>
    cases ordered with
    | object sorted ordered =>
      have each : ∀ m ∈ members, d.WritesWithin m.2 := fun m among => ih m among (ordered m among)
      refine ⟨fun path target o limit length read fits seen =>
          writesWithin_of_members sorted each read fits seen,
        fun _ _ _ _ _ _ read => ?_, fun path value limit length read fits seen => ?_,
        fun _ _ _ _ read => ?_⟩
      · cases read
      · obtain ⟨o, inner, rfl⟩ := Outcome.map_eq_ok.mp read
        rw [Extension.encode, encode_unshared]
        exact writesWithin_of_members sorted each inner fits seen
      · cases read

/-! ## Documents -/

/-- Reading a document comes by these steps to a value inside it, and on the way to a number of
objects that are alone under a key that is not declared. -/
inductive ArrivesInDocument (d : Decoder) : Json → List Segment → Json → Nat → Prop where
  | single {members : List (String × Json)} {place : List Segment} {asked : Option NodeClass}
    {node : Json} {wraps : Nat} (unlisted : Members.get? members "@graph" = none)
    (inside : d.Arrives .root none (.object (Members.erase members "@context")) place asked node
      wraps) :
    ArrivesInDocument d (.object members) place node wraps
  | listed {members : List (String × Json)} {items : List Json} {position : Nat} {item : Json}
    {place : List Segment} {asked : Option NodeClass} {node : Json} {wraps : Nat}
    (graph : Members.get? members "@graph" = some (.list items))
    (there : items[position]? = some item)
    (inside : d.Arrives ((Path.root.member "@graph").item position) none item place asked node
      wraps) :
    ArrivesInDocument d (.object members) (.name "@graph" :: .index position :: place) node wraps

variable {roots : List Object} {searched unbounded : Prop}

/-- The roots of a document are written no deeper than they stood in it, but for the lists around
single objects; a lone root loses the two steps of a list. -/
theorem staysWithin_of_decodeRoots (ordered : json.Ordered) (read : d.decodeRoots json = .ok roots)
    (fits : ∀ place members wraps, d.ArrivesInDocument json place (.object members) wraps →
      place.length + wraps ≤ limit) :
    ∀ root ∈ roots, ∀ seen, ∃ length,
      (Json.object (root.encode seen).1).staysWithin limit length = true ∧
        (2 ≤ roots.length → length = 2) := by
  intro root among seen
  cases json with
  | object members =>
    rw [decodeRoots] at read
    obtain ⟨-, -, read⟩ := Outcome.bind_eq_ok.mp read
    cases listed : Members.get? members "@graph" with
    | some graph =>
      simp only [listed] at read
      split at read
      · cases read
      cases graph with
      | list items =>
        obtain ⟨position, found⟩ := List.mem_iff_getElem?.mp among
        obtain ⟨item, there, first⟩ := exists_item_of_decodeItems_value read found
        rw [Nat.zero_add] at first
        have own : (Json.object members).at? [.name "@graph", .index position] = some item := by
          simp [listed, there]
        have writes := writesWithin d item (ordered.of_at? own)
        refine ⟨2, writes.object _ none root limit 2 first ?_ seen, fun _ => rfl⟩
        intro place asked members wraps arrives
        have bound := fits _ _ _ (.listed listed there arrives)
        simp only [List.length_cons] at bound
        omega
      | _ => cases read
    | none =>
      simp only [listed] at read
      obtain ⟨o, first, read⟩ := Outcome.bind_eq_ok.mp read
      cases read
      obtain rfl := List.mem_singleton.mp among
      refine ⟨0, (writesWithin d _ (ordered.erase _)).object _ none root limit 0 first ?_ seen,
        fun several => absurd several (by simp)⟩
      intro place asked members wraps arrives
      have bound := fits _ _ _ (.single listed arrives)
      omega
  | _ => cases read

/-- Every object of a document that is read stands within the limit. -/
theorem length_le_of_arrivesInDocument {place : List Segment} {inner : List (String × Json)}
    {wraps : Nat} (ordered : json.Ordered) (read : d.decodeRoots json = .ok roots)
    (arrives : d.ArrivesInDocument json place (.object inner) wraps) :
    place.length ≤ d.maxDepth := by
  cases arrives with
  | @single members place _ _ _ unlisted inside =>
    rw [decodeRoots] at read
    obtain ⟨-, -, read⟩ := Outcome.bind_eq_ok.mp read
    simp only [unlisted] at read
    obtain ⟨o, first, -⟩ := Outcome.bind_eq_ok.mp read
    have visited := (d.visits _ (ordered.erase _)).object _ _ o first
    have bound := (Json.staysWithin_iff_at? (ordered.erase _)).mp visited place inner inside.at?
    simpa using bound
  | @listed members items position item place _ _ _ graph there inside =>
    rw [decodeRoots] at read
    obtain ⟨-, -, read⟩ := Outcome.bind_eq_ok.mp read
    simp only [graph] at read
    split at read
    · cases read
    obtain ⟨o, -, first⟩ := exists_value_of_decodeItems read there
    rw [Nat.zero_add] at first
    have own : item.Ordered := by
      have found : (Json.object members).at? [.name "@graph", .index position] = some item := by
        simp [graph, there]
      exact ordered.of_at? found
    have visited := (d.visits item own).object _ _ o first
    have bound := (Json.staysWithin_iff_at? own).mp visited place inner inside.at?
    simp only [Path.length_item, Path.length_member, Path.length_root] at bound
    simp only [List.length_cons]
    omega

theorem unexceeded_checkContext (members : List (String × Json)) :
    Unexceeded (d.checkContext members) := by
  unfold checkContext
  split
  · exact .failAt _ (by simp)
  · split
    · exact .ok _
    · exact .failAt _ (by simp)
  · exact .failAt _ (by simp)

/-- What is left of a lone root without the context are members of the root. -/
theorem mem_of_mem_erase_union {members : Members Json} {context : Json} {m : String × Json}
    (among : m ∈ Members.erase (Members.union [("@context", context)] members) "@context") :
    m ∈ members := by
  obtain ⟨there, other⟩ := List.mem_filter.mp among
  refine (Members.mem_union there).resolve_left fun own => ?_
  rw [List.mem_singleton.mp own] at other
  cases other

theorem unexceeded_lone (distinct : d.registry.KeysDistinct) {root : Object}
    (sound : root.SoundThroughout d.registry searched unbounded none) (seen : Seen)
    (within : (Json.object (root.encode seen).1).staysWithin d.maxDepth 0 = true) :
    Unexceeded (d.decodeRoots (.object
      (Members.union [("@context", .string d.registry.contextUrl)] (root.encode seen).1))) := by
  have sorted := root.sorted_encode seen
  rw [decodeRoots]
  refine (unexceeded_checkContext _).bind fun _ _ => ?_
  split
  · split
    · exact .failAt _ (by simp)
    · -- The type of the root stands beside the list.
      rename_i alone
      obtain ⟨value, typed⟩ := (Object.hasKey_encode (Object.Writes.type (o := root)) seen).get?
      have there : ("@type", value) ∈ Members.union
          [("@context", .string d.registry.contextUrl)] (root.encode seen).1 := by
        refine Members.mem_of_get? ?_
        rw [Members.get?_union sorted, typed]
        rfl
      have reserved := List.find?_eq_none.mp alone _ there
      exact absurd rfl reserved
  · refine Unexceeded.bind ?_ fun o _ => .ok _
    obtain ⟨-, below⟩ := Json.staysWithin_object.mp within
    have kept : ∀ m ∈ Members.erase (Members.union [("@context",
        .string d.registry.contextUrl)] (root.encode seen).1) "@context",
          m ∈ (root.encode seen).1 := fun m => mem_of_mem_erase_union
    refine rereadsWithin distinct sound .root _
      (fun m among => Object.writes_of_mem_encode (kept m among)) ?_
    exact Json.staysWithin_object.mpr ⟨Nat.zero_le _, fun m among => below m (kept m among)⟩

theorem unexceeded_listed {items : List Json}
    (each : ∀ item ∈ items, ∀ position, Unexceeded
      (d.decodeObject ((Path.root.member "@graph").item position) none item)) :
    Unexceeded (d.decodeRoots (.object (Members.insert
      [("@context", .string d.registry.contextUrl)] "@graph" (.list items)))) := by
  have checked : d.checkContext [("@context", .string d.registry.contextUrl),
      ("@graph", .list items)] = .ok () := if_pos rfl
  show Unexceeded (d.decodeRoots (.object [("@context", .string d.registry.contextUrl),
    ("@graph", .list items)]))
  rw [decodeRoots, checked]
  show Unexceeded (decodeItems (fun path json => d.decodeObject path none json) _ 0 items)
  exact Unexceeded.items each 0

end Decoder

namespace Graph

open Decoder

/-- The document of a graph does not exceed a limit if its roots are written within it, each at its
place. -/
theorem unexceeded_toJson {registry : Registry} {limit : Nat} {roots : List Object}
    (distinct : registry.KeysDistinct)
    (sound : ∀ root ∈ roots, root.SoundThroughout registry True True none)
    (within : ∀ root ∈ roots, ∀ seen, ∃ length,
      (Json.object (root.encode seen).1).staysWithin limit length = true ∧
        (2 ≤ roots.length → length = 2)) :
    Unexceeded
      ((Decoder.mk registry limit).decodeRoots ((empty registry).addAll roots).toJson) := by
  rcases roots with _ | ⟨root, _ | ⟨second, rest⟩⟩
  · intro path n fails
    have bare := (Decoder.mk registry limit).decodeRoots_bare
    cases bare.symm.trans fails
  · obtain ⟨length, shallow, -⟩ := within root List.mem_cons_self []
    exact unexceeded_lone (d := ⟨registry, limit⟩) distinct (sound root List.mem_cons_self) []
      (Json.staysWithin_mono (Nat.zero_le _) shallow)
  · refine unexceeded_listed (d := ⟨registry, limit⟩) fun item among position => ?_
    obtain ⟨members, there, rfl⟩ := List.mem_map.mp among
    let roots : List Root := (root :: second :: rest).map (⟨none, ·⟩)
    have written : members ∈ encodeRoots roots (roots.filterMap (·.handle)) := there
    obtain ⟨_, listed, seen', rfl⟩ := mem_encodeRoots written
    obtain ⟨root, hr, rfl⟩ := List.mem_map.mp listed
    obtain ⟨length, shallow, listed⟩ := within root hr seen'
    obtain rfl := listed (Nat.le_add_left 2 _)
    exact rereadsWithin distinct (sound root hr) _ _ (fun m => Object.writes_of_mem_encode)
      (by simpa using shallow)

/-- Where no key means two things in a class, the document that is written of what was read exceeds
no limit that holds for the objects of the document that was read, if each object that stands alone
under a key which is not declared counts for one more step, for itself and for all that is inside
it. So without such objects it does not exceed the limit that it was read under. -/
theorem decode_toJson_unexceeded {registry : Registry} {maxDepth : Nat} {document : Json}
    {graph : Graph} (distinct : registry.KeysDistinct) (ordered : document.Ordered)
    (read : (empty registry).decode maxDepth document = .ok graph) :
    (∀ limit,
      (∀ place members wraps, (Decoder.mk registry maxDepth).ArrivesInDocument document place
        (.object members) wraps → place.length + wraps ≤ limit) →
      ∀ path n, (empty registry).decode limit graph.toJson ≠ .error ⟨path, .depthExceeded n⟩) ∧
    ((∀ place members wraps, (Decoder.mk registry maxDepth).ArrivesInDocument document place
        (.object members) wraps → wraps = 0) →
      ∀ path n, (empty registry).decode maxDepth graph.toJson ≠
        .error ⟨path, .depthExceeded n⟩) := by
  obtain ⟨roots, decoded, rfl⟩ := Outcome.map_eq_ok.mp read
  have bounded : ∀ limit, (∀ place members wraps, (Decoder.mk registry maxDepth).ArrivesInDocument
      document place (.object members) wraps → place.length + wraps ≤ limit) → ∀ path n,
        (empty registry).decode limit ((empty registry).addAll roots).toJson ≠
          .error ⟨path, .depthExceeded n⟩ := by
    intro limit fits
    have written := staysWithin_of_decodeRoots ordered decoded fits
    exact (unexceeded_toJson distinct (sound_of_decodeRoots decoded) written).map
  refine ⟨bounded, fun unwrapped => bounded maxDepth fun place members wraps arrives => ?_⟩
  rw [unwrapped place members wraps arrives]
  exact length_le_of_arrivesInDocument ordered decoded arrives

end Graph

namespace Sample

/-- A document of one hamper that holds something under a key that hampers do not declare. -/
def hamperDocument (content : Json) : Json := .object
  [("@context", .string ""), ("@type", .string "P"), ("x", content)]

def emptyHamper : Json := .object [("@type", .string "P")]

/-- A hamper alone in a hamper. -/
def packedHamper : Json := hamperDocument emptyHamper

/-- A list of one hamper in a hamper. -/
def listedHamper : Json := hamperDocument (.list [emptyHamper])

end Sample

/-- What was read at a depth of one step is written at a depth of two. -/
theorem Sample.packedHamper_deepens : ∃ graph,
    Registry.build "" [Sample.hamper] = .ok Sample.hamperRegistry ∧
      Sample.hamperRegistry.KeysDistinct ∧
        (Graph.empty Sample.hamperRegistry).decode 1 Sample.packedHamper = .ok graph ∧
          (Graph.empty Sample.hamperRegistry).decode 1 graph.toJson =
            .error ⟨⟨[.name "x", .index 0]⟩, .depthExceeded 1⟩ :=
  ⟨_, rfl, by decide, rfl, rfl⟩

theorem Sample.ordered_emptyHamper : Sample.emptyHamper.Ordered :=
  .object (by decide) (List.forall_mem_singleton.mpr (.string "P"))

theorem Sample.ordered_hamperDocument {content : Json} (ordered : content.Ordered) :
    (Sample.hamperDocument content).Ordered := by
  refine .object (List.pairwise_map.mp ?_) ?_
  · show List.Pairwise (· < ·) ["@context", "@type", "x"]
    decide
  simp only [List.forall_mem_cons]
  exact ⟨.string _, .string _, ordered, fun _ there => absurd there List.not_mem_nil⟩

/-- In a hamper that says nothing but its type there is no other object. -/
theorem Sample.eq_nil_of_arrives {d : Decoder} {path : Path} {target asked : Option NodeClass}
    {place : List Segment} {inner : List (String × Json)} {wraps : Nat}
    (arrives : d.Arrives path target Sample.emptyHamper place asked (.object inner) wraps) :
    place = [] ∧ wraps = 0 := by
  rcases arrives.cases_object with here | ⟨key, value, rest, inside, _, among, -, arrives, -⟩
  · exact here
  · cases List.mem_singleton.mp among
    cases arrives

/-- An object of such a document is the hamper itself or stands in what that holds. -/
theorem Sample.arrives_hamperDocument {d : Decoder} {content : Json} {place : List Segment}
    {inner : List (String × Json)} {wraps : Nat}
    (arrives : d.ArrivesInDocument (Sample.hamperDocument content) place (.object inner) wraps) :
    (place = [] ∧ wraps = 0) ∨ ∃ path wanted asked rest inside, place = .name "x" :: rest ∧
      d.Arrives path wanted content rest asked (.object inner) inside ∧
        (wraps = inside ∨ ∃ lone, content = .object lone ∧ wraps = inside + 1) := by
  cases arrives with
  | listed listed => cases listed
  | single _ inside =>
    rcases inside.cases_object with
      here | ⟨key, value, rest, counted, wanted, among, rfl, arrives, counts⟩
    · exact .inl here
    · replace among : (key, value) ∈ [("@type", .string "P"), ("x", content)] := among
      simp only [List.mem_cons, List.not_mem_nil, or_false] at among
      rcases among with same | same
      · cases same
        cases arrives
      · cases same
        exact .inr ⟨_, wanted, _, rest, counted, rfl, arrives, counts⟩

theorem Sample.hampers_readAgain :
    (∃ graph, (Graph.empty Sample.hamperRegistry).decode 1 Sample.packedHamper = .ok graph ∧
      ∀ path n, (Graph.empty Sample.hamperRegistry).decode 2 graph.toJson ≠
        .error ⟨path, .depthExceeded n⟩) ∧
    ∃ graph, (Graph.empty Sample.hamperRegistry).decode 2 Sample.listedHamper = .ok graph ∧
      ∀ path n, (Graph.empty Sample.hamperRegistry).decode 2 graph.toJson ≠
        .error ⟨path, .depthExceeded n⟩ := by
  have distinct : Sample.hamperRegistry.KeysDistinct := by decide
  constructor
  · obtain ⟨graph, read⟩ : ∃ graph, (Graph.empty Sample.hamperRegistry).decode 1
        Sample.packedHamper = .ok graph := ⟨_, rfl⟩
    have ordered := Sample.ordered_hamperDocument Sample.ordered_emptyHamper
    obtain ⟨within, -⟩ := Graph.decode_toJson_unexceeded distinct ordered read
    refine ⟨graph, read, within 2 fun place members wraps arrives => ?_⟩
    rcases Sample.arrives_hamperDocument arrives with
      ⟨rfl, rfl⟩ | ⟨_, _, _, rest, inside, rfl, arrives, counts⟩
    · exact Nat.zero_le 2
    · obtain ⟨rfl, rfl⟩ := Sample.eq_nil_of_arrives arrives
      rcases counts with rfl | ⟨_, -, rfl⟩ <;> decide
  · obtain ⟨graph, read⟩ : ∃ graph, (Graph.empty Sample.hamperRegistry).decode 2
        Sample.listedHamper = .ok graph := ⟨_, rfl⟩
    have ordered := Sample.ordered_hamperDocument
      (.list (List.forall_mem_singleton.mpr Sample.ordered_emptyHamper))
    obtain ⟨-, unwrapped⟩ := Graph.decode_toJson_unexceeded distinct ordered read
    refine ⟨graph, read, unwrapped fun place members wraps arrives => ?_⟩
    rcases Sample.arrives_hamperDocument arrives with
      ⟨-, rfl⟩ | ⟨_, _, _, rest, inside, -, arrives, counts⟩
    · rfl
    · cases arrives with
      | item there arrives =>
        cases List.mem_singleton.mp (List.mem_of_getElem? there)
        obtain ⟨-, rfl⟩ := Sample.eq_nil_of_arrives arrives
        rcases counts with same | ⟨_, same, -⟩
        · exact same
        · cases same

end ShapedGraph

import ShapedGraph.Proofs.Coverage
import ShapedGraph.Proofs.Grammar
import ShapedGraph.Proofs.Layout

/-! The places of a layout that documents can fill. A layout has each declaration once, however many
ways a class inherits it, but two declarations in it may share a key: then the key means the later
one, and the earlier is filled only if it has another key. -/

namespace ShapedGraph

/-! ## Places by key -/

namespace NodeClass

variable {c : NodeClass} {place : Nat} {p : Property}

theorem keyPlace_key_iff (there : c.layout[place]? = some p) : c.keyPlace p.key = some place ↔
    ∀ other q, c.layout[other]? = some q → p.key ∈ q.keys → other ≤ place := by
  rw [keyPlace_eq_some_iff]
  constructor
  · rintro ⟨_, -, -, last⟩
    exact last
  · intro last
    exact ⟨p, there, p.key_mem_keys, last⟩

theorem keyPlace_key_of_same (distinct : Property.Distinct c.layout)
    (there : c.layout[place]? = some p)
    (alone : ∀ q ∈ c.layout, p.key ∈ q.keys → q.same p = true) :
    c.keyPlace p.key = some place := by
  refine (keyPlace_key_iff there).mpr fun other q hq shares => Nat.not_lt.mp fun later => ?_
  have same := alone q (List.mem_of_getElem? hq) shares
  obtain ⟨known, rfl⟩ := List.getElem?_eq_some_iff.mp there
  obtain ⟨inside, rfl⟩ := List.getElem?_eq_some_iff.mp hq
  -- The later place would hold the same declaration, which the layout has once.
  have apart := List.pairwise_iff_getElem.mp distinct place other known inside later
  rw [Property.same_comm] at apart
  cases apart.symm.trans same

end NodeClass

/-! ## Content for every property -/

theorem Context.exists_isIdentifier (context : Context) :
    ∃ text, isIdentifier (context.expand text) = true := by
  have bound : ∀ pairs : List Abbreviation, ∃ n, ∀ pair ∈ pairs, pair.token.length ≤ n := by
    intro pairs
    induction pairs with
    | nil => exact ⟨0, nofun⟩
    | cons pair pairs ih =>
      obtain ⟨n, short⟩ := ih
      refine ⟨max pair.token.length n, List.forall_mem_cons.mpr ⟨Nat.le_max_left _ _, ?_⟩⟩
      exact fun other among => Nat.le_trans (short other among) (Nat.le_max_right _ _)
  -- A text that is longer than every token is none of them, so it stands for itself.
  obtain ⟨n, short⟩ := bound context.pairs
  let text := String.ofList (List.replicate (n + 1) ':')
  have long : text.length = n + 1 := by simp [text]
  have notToken : context.pairs.find? (·.token == text) = none := by
    refine List.find?_eq_none.mpr fun pair among same => ?_
    have := short pair among
    rw [beq_iff_eq.mp same, long] at this
    omega
  have plain : context.expand text = text := by rw [expand, notToken]
  exact ⟨text, by rw [plain, isIdentifier_iff_colon]; simp [text]⟩

theorem ScalarKind.exists_admits (kind : ScalarKind) (context : Context) :
    ∃ json : Json, json.Ordered ∧ kind.Admits context json ∧
      ∀ limit length, json.staysWithin limit length = true := by
  have stamp : ∃ t, DateTime.ofChars? true "2000-01-01T00:00:00Z".toList = some t := ⟨_, rfl⟩
  have time : ∃ t, DateTime.ofChars? false "2000-01-01T00:00:00Z".toList = some t := ⟨_, rfl⟩
  cases kind with
  | string => exact ⟨_, .string "", .string "", fun _ _ => rfl⟩
  | iri =>
    obtain ⟨text, shaped⟩ := context.exists_isIdentifier
    exact ⟨_, .string text, .iri shaped, fun _ _ => rfl⟩
  | boolean => exact ⟨_, .bool true, .boolean true, fun _ _ => rfl⟩
  | integer => exact ⟨_, .integer 0, .integer (by decide) (by decide), fun _ _ => rfl⟩
  | float => exact ⟨_, .integer 0, .float rfl, fun _ _ => rfl⟩
  | dateTime =>
    obtain ⟨t, read⟩ := time
    exact ⟨_, .string _, .dateTime read, fun _ _ => rfl⟩
  | dateTimeStamp =>
    obtain ⟨t, read⟩ := stamp
    exact ⟨_, .string _, .dateTimeStamp read, fun _ _ => rfl⟩

/-- A slot holds a value and, if it is a list, as many as there must be. -/
def Slot.Suffices (p : Property) (slot : Slot) : Prop :=
  slot.isSet = true ∧ (p.isList = true → p.minCount.getD 0 ≤ slot.length)

namespace Registry

theorem exists_conformsItem (registry : Registry) (p : Property) :
    ∃ item : Json, item.Ordered ∧ registry.ConformsItem p item ∧
      ∀ limit length, item.staysWithin limit length = true := by
  cases holds : p.kind with
  | scalar kind =>
    obtain ⟨json, ordered, admits, within⟩ := kind.exists_admits p.context
    exact ⟨json, ordered, .scalar holds admits, within⟩
  | object cls =>
    obtain ⟨text, shaped⟩ := p.context.exists_isIdentifier
    exact ⟨_, .string text, .iri holds shaped, fun _ _ => rfl⟩

/-- There is content for every property, as much of it as is wanted. -/
theorem exists_conformsContent (registry : Registry) (p : Property) (count : Nat) :
    ∃ json : Json, json.Ordered ∧ registry.ConformsContent p json ∧
      (∀ limit length, json.staysWithin limit length = true) ∧
        (p.isList = true → ∃ items, json = .list items ∧ items.length = count) := by
  obtain ⟨item, ordered, conforms, within⟩ := registry.exists_conformsItem p
  cases many : p.isList with
  | false => exact ⟨item, ordered, .single many conforms, within, nofun⟩
  | true =>
    have each : ∀ {P : Json → Prop}, P item → ∀ x ∈ List.replicate count item, P x :=
      fun holds x hx => (List.mem_replicate.mp hx).2 ▸ holds
    refine ⟨.list (List.replicate count item), .list (each ordered), .list many (each conforms),
      fun limit length => Json.staysWithin_list.mpr (each (within _ _)), fun _ => ?_⟩
    exact ⟨_, rfl, List.length_replicate⟩

end Registry

/-! ## Reading content into a place -/

namespace Decoder

variable {d : Decoder} {path : Path} {json : Json} {p : Property} {slot : Slot}

theorem ReadsSlot.suffices (reads : d.ReadsSlot p path json slot)
    (long : p.isList = true → ∃ items, json = .list items ∧
      items.length = p.minCount.getD 0 + 1) : slot.Suffices p := by
  cases reads with
  | scalar _ single => exact ⟨rfl, fun many => nomatch single.symm.trans many⟩
  | reference _ single read =>
    refine ⟨?_, fun many => nomatch single.symm.trans many⟩
    cases json <;> obtain ⟨_, -, rfl⟩ := Outcome.map_eq_ok.mp read <;> rfl
  | list _ many read =>
    obtain ⟨items, rfl, length⟩ := long many
    have same := (forall₂_of_decodeItems read).length_eq
    refine ⟨?_, fun _ => show _ ≤ List.length _ by omega⟩
    simp only [Slot.isSet, Bool.not_eq_true', List.isEmpty_eq_false_iff, ← List.length_pos_iff]
    omega
  | references _ many read =>
    obtain ⟨items, rfl, length⟩ := long many
    rw [decodeReferenceList, decodeReferences_eq] at read
    have same := (forall₂_of_decodeItems read).length_eq
    refine ⟨?_, fun _ => show _ ≤ List.length _ by omega⟩
    simp only [Slot.isSet, Bool.not_eq_true', List.isEmpty_eq_false_iff, ← List.length_pos_iff]
    omega

end Decoder

namespace Decoder

variable {d : Decoder} {path : Path} {json : Json} {target : Option NodeClass} {o : Object}
  {place : Nat} {slot : Slot}

/-- What an object holds in a place was read from a member whose key stands for that place. -/
theorem standsFor_of_isSet (h : d.decodeObject path target json = .ok o)
    (there : o.slots[place]? = some slot) (set : slot.isSet = true) :
    ∃ key p, o.cls.Unreserved key ∧ o.cls.StandsFor key place p := by
  cases json with
  | object members =>
    obtain ⟨type, cls, -, read⟩ := exists_class_of_decodeObject h
    obtain ⟨rfl, -⟩ := typed_of_decodeMembers read
    obtain ⟨m, -, brought⟩ := exists_member_of_isSet read there set
    cases readMember_eq_ok.mp brought with
    | slot role =>
      obtain ⟨free, p, stands⟩ := NodeClass.memberRole_eq_declared_iff.mp role
      exact ⟨_, p, free, stands⟩
  | _ => cases readsObject_of_decodeObject h

/-- An object with its type and one more member fills the place that the member's key stands for. -/
theorem exists_decodeObject_suffices {cls : NodeClass} {key type : String} {p : Property}
    (within : path.length < d.maxDepth) (known : d.registry.get? type = some cls)
    (concrete : cls.isAbstract = false) (free : cls.Unreserved key)
    (stands : cls.StandsFor key place p) :
    ∃ json o slot, Json.Ordered json ∧ d.decodeObject path none json = .ok o ∧ o.cls = cls ∧
      o.slots[place]? = some slot ∧ slot.Suffices p := by
  obtain ⟨content, ordered, conforms, shallow, long⟩ :=
    d.registry.exists_conformsContent p (p.minCount.getD 0 + 1)
  obtain ⟨slot, read⟩ := (exists_readSlot_iff (d.decidesGrammar content)
    (shallow _ (path.member key).length)).mpr conforms
  have enough := (readSlot_eq_ok.mp read).suffices long
  have slotRead : d.readMember path cls key content = .ok (.slot place slot) :=
    readMember_eq_ok.mpr (.slot (NodeClass.memberRole_eq_declared_iff.mpr ⟨free, p, stands⟩)
      stands.there (readSlot_eq_ok.mp read))
  have typeRead : d.readMember path cls "@type" (.string type) = .ok .nothing :=
    readMember_eq_ok.mpr (.type cls.memberRole_type)
  let members := Members.insert [("@type", .string type)] key content
  have typed : typeName path members = .ok type := by
    rw [typeName_eq_ok, Members.get?_insert, if_neg free.1.symm, Members.get?_cons, if_pos rfl]
  have chosen : Registry.Chosen d.registry False none type cls := .named known nofun concrete
  have only := (choose_of_chosen path chosen).resolve_right fun searched => searched.1
  let filled := (Object.ofType cls type).putSlot place slot
  have reads : d.decodeMembers path members (.ofType cls type) = .ok filled := by
    have either : members = [(key, content), ("@type", .string type)] ∨
        members = [("@type", .string type), (key, content)] := by
      show Members.insert _ _ _ = _ ∨ Members.insert _ _ _ = _
      rw [Members.insert, if_neg free.1]
      split
      · exact .inl rfl
      · exact .inr rfl
    have own : (Object.ofType cls type).cls = cls := rfl
    rcases either with same | same
    all_goals rw [same, decodeMembers_eq_ok (Object.shaped_ofType cls type)]
    · exact ⟨[.slot place slot, .nothing], by simp [own, slotRead, typeRead], rfl⟩
    · exact ⟨[.nothing, .slot place slot], by simp [own, slotRead, typeRead], rfl⟩
  refine ⟨.object members, filled, slot, ?_, ?_, rfl, ?_, enough⟩
  · refine .object (Members.sorted_insert (List.pairwise_singleton _ _) _ _) fun m hm => ?_
    rcases Members.mem_insert hm with rfl | hm
    · exact ordered
    · exact List.mem_singleton.mp hm ▸ .string type
  · exact (decodeObject_of_only (Nat.le_of_lt within) typed only).trans reads
  · obtain ⟨blank, there⟩ := (Object.shaped_ofType cls type).getElem?_slots stands.there
    obtain ⟨inside, -⟩ := List.getElem?_eq_some_iff.mp there
    exact List.getElem?_set_self inside

end Decoder

/-! ## Documents -/

namespace Registry

variable {decls : List ClassDecl} {contextUrl : String} {registry : Registry} {c : NodeClass}
  {place : Nat} {p : Property}

/-- Some document has a root of the class that holds in a place all that the property there must
have. -/
def CanFill (registry : Registry) (c : NodeClass) (place : Nat) : Prop :=
  ∃ document graph root p slot, Json.Ordered document ∧
    (Graph.empty registry).decode defaultMaxDepth document = .ok graph ∧
      root ∈ graph.roots ∧ root.object.cls = c ∧
        root.object.properties[place]? = some (p, slot) ∧ slot.Suffices p

def listing (registry : Registry) (json : Json) : Json :=
  .object [("@context", .string registry.contextUrl), ("@graph", .list [json])]

theorem decode_listing {maxDepth : Nat} {json : Json} {o : Object}
    (read : (Decoder.mk registry maxDepth).decodeObject ((Path.root.member "@graph").item 0) none
      json = .ok o) :
    (Graph.empty registry).decode maxDepth (registry.listing json) =
      .ok ⟨registry, [⟨none, o⟩]⟩ := by
  have context : (Decoder.mk registry maxDepth).checkContext
      [("@context", .string registry.contextUrl), ("@graph", .list [json])] = .ok () := if_pos rfl
  have roots : (Decoder.mk registry maxDepth).decodeRoots (registry.listing json) = .ok [o] := by
    rw [listing, Decoder.decodeRoots, context]
    have items : decodeItems (fun path json => (Decoder.mk registry maxDepth).decodeObject path none
        json) (Path.root.member "@graph") 0 [json] = .ok [o] := by
      rw [decodeItems, read]
      rfl
    exact items
  exact Outcome.map_eq_ok.mpr ⟨[o], roots, rfl⟩

/-- A document can fill a place exactly if some key of the property, free of other meanings, stands
for it. -/
theorem canFill_iff {type : String} (known : registry.get? type = some c)
    (concrete : c.isAbstract = false) (there : c.layout[place]? = some p) :
    registry.CanFill c place ↔ ∃ key ∈ p.keys, c.Unreserved key ∧
      ∀ other q, c.layout[other]? = some q → key ∈ q.keys → other ≤ place := by
  constructor
  · rintro ⟨document, graph, root, q, slot, -, read, among, rfl, filled, set, -⟩
    obtain ⟨roots, read, same⟩ := Graph.roots_of_decode read
    rw [same] at among
    obtain ⟨o, ho, rfl⟩ := List.mem_map.mp among
    obtain ⟨json, -, path, read⟩ :=
      exists_mem_of_forall₂ (Decoder.forall₂_of_decodeRoots read) ho
    have content := (Object.getElem?_properties.mp filled).2
    obtain ⟨key, q', free, stands⟩ := Decoder.standsFor_of_isSet read content set
    cases stands.there.symm.trans there
    exact ⟨key, stands.written, free, stands.last⟩
  · rintro ⟨key, written, free, last⟩
    have shallow : ((Path.root.member "@graph").item 0).length < defaultMaxDepth := by decide
    obtain ⟨json, o, slot, ordered, read, rfl, content, enough⟩ :=
      Decoder.exists_decodeObject_suffices (d := ⟨registry, defaultMaxDepth⟩) shallow known concrete
        free ⟨there, written, last⟩
    refine ⟨registry.listing json, _, ⟨none, o⟩, p, slot, ?_, decode_listing read, .head _, rfl,
      Object.getElem?_properties.mpr ⟨there, content⟩, enough⟩
    have ascending : "@context" < "@graph" := by decide
    have sorted : Members.Sorted
        [("@context", Json.string registry.contextUrl), ("@graph", .list [json])] :=
      List.pairwise_cons.mpr
        ⟨List.forall_mem_singleton.mpr ascending, List.pairwise_singleton _ _⟩
    refine .object sorted fun m hm => ?_
    rcases List.mem_cons.mp hm with rfl | hm
    · exact .string _
    · cases List.mem_singleton.mp hm
      exact .list fun item hi => List.mem_singleton.mp hi ▸ ordered

/-- The key that a property is written with means its place exactly if no property behind it in the
layout shares the key, and so whenever no other declaration does. A document can fill the place
exactly if that holds of one of the keys of the property that mean nothing else. -/
theorem keyPlace_key_iff_and_canFill_iff {order : AliasOrder}
    (built : build contextUrl decls order = .ok registry) (registered : c ∈ registry.classes)
    (there : c.layout[place]? = some p) :
    (c.keyPlace p.key = some place ↔
      ∀ other q, c.layout[other]? = some q → p.key ∈ q.keys → other ≤ place) ∧
    ((∀ q ∈ c.layout, p.key ∈ q.keys → q.same p = true) → c.keyPlace p.key = some place) ∧
    ∀ type, registry.get? type = some c → c.isAbstract = false →
      (registry.CanFill c place ↔ ∃ key ∈ p.keys, c.Unreserved key ∧
        ∀ other q, c.layout[other]? = some q → key ∈ q.keys → other ≤ place) := by
  have distinct := ((build_spec built).1.resolved c registered).distinct_layout
  refine ⟨NodeClass.keyPlace_key_iff there, NodeClass.keyPlace_key_of_same distinct there, ?_⟩
  exact fun type known concrete => canFill_iff known concrete there

end Registry

namespace Sample

/-- A person must have a name. -/
def person : ClassDecl where
  iri := "ex:Person"
  compact := some "Person"
  nodeKind := none
  idAlias := none
  isAbstract := false
  extensible := none
  parents := []
  properties := [⟨"name", "ex:name", some "name", .scalar .string, false, some 1, none, [], []⟩]

/-- An author is a person and must have a name that starts with a capital. -/
def author : ClassDecl := { person with
  iri := "ex:Author"
  compact := some "Author"
  parents := ["Person"]
  properties := [⟨"penName", "ex:name", some "name", .scalar .string, false, some 1, none, [],
    [.pattern "^[A-Z]"]⟩] }

def authorRegistry : Registry := (Registry.build "" [person, author]).toOption.getD ⟨"", [], []⟩

end Sample

/-- The key of the name that every person must have means the pen name of an author, so no author
that is read has that name. -/
theorem Sample.author_lacks_name : ∃ cls p,
    Registry.build "" [Sample.person, Sample.author] = .ok Sample.authorRegistry ∧
      Sample.authorRegistry.get? "Author" = some cls ∧ cls.layout[0]? = some p ∧
        p.isRequired = true ∧ cls.keyPlace p.key = some 1 ∧
          ∀ (d : Decoder) path target json o, d.decodeObject path target json = .ok o →
            o.cls = cls → ∀ slot, o.slots[0]? = some slot → slot.isSet = false := by
  obtain ⟨cls, p, q, built, known, first, second, required, meant, shared⟩ : ∃ cls p q,
      Registry.build "" [Sample.person, Sample.author] = .ok Sample.authorRegistry ∧
        Sample.authorRegistry.get? "Author" = some cls ∧ cls.layout[0]? = some p ∧
          cls.layout[1]? = some q ∧ p.isRequired = true ∧ cls.keyPlace p.key = some 1 ∧
            p.keys = q.keys :=
    ⟨_, _, _, rfl, rfl, rfl, rfl, rfl, rfl, rfl⟩
  refine ⟨cls, p, built, known, first, required, meant, ?_⟩
  rintro d path target json o read rfl slot there
  refine Bool.eq_false_iff.mpr fun set => ?_
  obtain ⟨key, p', -, stands⟩ := Decoder.standsFor_of_isSet read there set
  cases stands.there.symm.trans first
  have later := stands.last 1 q second (shared ▸ stands.written)
  omega

/-- The pen name of an author stands behind the name of a person, and a document can fill it. -/
theorem Sample.author_has_penName : ∃ cls p,
    Registry.build "" [Sample.person, Sample.author] = .ok Sample.authorRegistry ∧
      cls ∈ Sample.authorRegistry.classes ∧ cls.layout[1]? = some p ∧
        cls.keyPlace p.key = some 1 ∧ Sample.authorRegistry.CanFill cls 1 := by
  obtain ⟨cls, p, built, registered, there, known, concrete, two, written, free⟩ : ∃ cls p,
      Registry.build "" [Sample.person, Sample.author] = .ok Sample.authorRegistry ∧
        cls ∈ Sample.authorRegistry.classes ∧ cls.layout[1]? = some p ∧
          Sample.authorRegistry.get? "Author" = some cls ∧ cls.isAbstract = false ∧
            cls.layout.length = 2 ∧ p.key = "name" ∧ cls.idKey = "@id" :=
    ⟨_, _, rfl, .tail _ (.head _), rfl, rfl, rfl, rfl, rfl, rfl⟩
  have last : ∀ other q, cls.layout[other]? = some q → p.key ∈ q.keys → other ≤ 1 := by
    intro other q hq _
    have := (List.getElem?_eq_some_iff.mp hq).1
    omega
  have unreserved : cls.Unreserved p.key := by
    rw [written]
    exact ⟨by decide, by rw [free]; decide, by decide⟩
  obtain ⟨meant, -, filled⟩ := Registry.keyPlace_key_iff_and_canFill_iff built registered there
  exact ⟨cls, p, built, registered, there, meant.mpr last,
    (filled "Author" known concrete).mpr ⟨p.key, p.key_mem_keys, unreserved, last⟩⟩

end ShapedGraph

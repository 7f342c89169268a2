import ShapedGraph.Proofs.Choice
import ShapedGraph.Proofs.Limits

/-! Where reading comes to. Everything in a value that is read stands in an object that was read on
the way to it, so the limit bounds the paths of objects and, but for two more steps, those of what
stands in their members. It does not bound the lists in the values of members that are not declared:
these can be put into each other as often as one likes. -/

namespace ShapedGraph

namespace Decoder

variable {d : Decoder} {path : Path} {target asked : Option NodeClass} {json node : Json}
  {place : List Segment} {wraps : Nat} {key : String} {members : List (String × Json)} {o : Object}

/-- Reading a value at a path, for a place that asks for a class or for none, comes by these steps
to a value inside it, for a place that asks for a class or for none. On the way it comes to a number
of objects that are alone under a key that is not declared, each of which is kept as the only
element of a list. -/
inductive Arrives (d : Decoder) :
    Path → Option NodeClass → Json → List Segment → Option NodeClass → Json → Nat → Prop where
  | here {path : Path} {target : Option NodeClass} {json : Json} :
    Arrives d path target json [] target json 0
  | item {path : Path} {target asked : Option NodeClass} {items : List Json} {position : Nat}
    {item node : Json} {place : List Segment} {wraps : Nat} (there : items[position]? = some item)
    (inside : Arrives d (path.item position) target item place asked node wraps) :
    Arrives d path target (.list items) (.index position :: place) asked node wraps
  | member {path : Path} {target asked : Option NodeClass} {members : List (String × Json)}
    {o : Object} {key : String} {value node : Json} {place : List Segment} {wraps : Nat}
    (read : d.decodeObject path target (.object members) = .ok o)
    (there : Members.get? members key = some value)
    (plain : o.cls.memberRole key = .undeclared → ∀ inner, value ≠ .object inner)
    (inside : Arrives d (path.member key) (d.registry.memberTarget o.cls key) value place asked node
      wraps) :
    Arrives d path target (.object members) (.name key :: place) asked node wraps
  | wrapped {path : Path} {target asked : Option NodeClass} {members inner : List (String × Json)}
    {o : Object} {key : String} {node : Json} {place : List Segment} {wraps : Nat}
    (read : d.decodeObject path target (.object members) = .ok o)
    (there : Members.get? members key = some (.object inner))
    (role : o.cls.memberRole key = .undeclared)
    (inside : Arrives d (path.member key) (d.registry.memberTarget o.cls key) (.object inner) place
      asked node wraps) :
    Arrives d path target (.object members) (.name key :: place) asked node (wraps + 1)

theorem Arrives.at? (arrives : d.Arrives path target json place asked node wraps) :
    json.at? place = some node := by
  induction arrives with
  | here => exact Json.at?_nil _
  | item there _ ih | member _ there _ _ ih | wrapped _ there _ _ ih => simp [there, ih]

/-- On the way to an object inside an object, reading comes to a member first, and it counts the
value of that at most if it is an object. -/
theorem Arrives.cases_object {inner : List (String × Json)}
    (arrives : d.Arrives path target (.object members) place asked (.object inner) wraps) :
    (place = [] ∧ wraps = 0) ∨ ∃ key value rest inside wanted, (key, value) ∈ members ∧
      place = .name key :: rest ∧
        d.Arrives (path.member key) wanted value rest asked (.object inner) inside ∧
          (wraps = inside ∨ ∃ lone, value = .object lone ∧ wraps = inside + 1) := by
  cases arrives with
  | here => exact .inl ⟨rfl, rfl⟩
  | member _ there _ arrives =>
    exact .inr ⟨_, _, _, _, _, Members.mem_of_get? there, rfl, arrives, .inl rfl⟩
  | wrapped _ there _ arrives =>
    exact .inr ⟨_, _, _, _, _, Members.mem_of_get? there, rfl, arrives, .inr ⟨_, rfl, rfl⟩⟩

/-- From an object that is read, reading goes on to the values of its members. -/
theorem Arrives.enter {value : Json} (read : d.decodeObject path target (.object members) = .ok o)
    (there : Members.get? members key = some value)
    (inside : d.Arrives (path.member key) (d.registry.memberTarget o.cls key) value place asked node
      wraps) :
    ∃ wraps', d.Arrives path target (.object members) (.name key :: place) asked node wraps' := by
  by_cases wrapped : o.cls.memberRole key = .undeclared ∧ ∃ inner, value = .object inner
  · obtain ⟨role, inner, rfl⟩ := wrapped
    exact ⟨wraps + 1, .wrapped read there role inside⟩
  · exact ⟨wraps, .member read there (fun role inner same => wrapped ⟨role, inner, same⟩) inside⟩

/-! ## What stands in the objects -/

/-- The steps are positions in lists only. -/
def InLists (place : List Segment) : Prop := ∃ positions : List Nat, place = positions.map .index

/-- A place in a value belongs to an object that was read on the way to it: the object stands there,
or the value of one of its members does, with lists but no other object around the place. Lists
stand in lists only under keys that are not declared. -/
inductive Belongs (d : Decoder) (path : Path) (target : Option NodeClass) (json : Json)
    (place : List Segment) : Prop where
  | object {asked : Option NodeClass} {members : List (String × Json)} {o : Object} {wraps : Nat}
    (arrives : d.Arrives path target json place asked (.object members) wraps)
    (read : d.decodeObject ⟨path.segments ++ place⟩ asked (.object members) = .ok o)
  | member {above inside : List Segment} {key : String} {asked : Option NodeClass}
    {members : List (String × Json)} {o : Object} {wraps : Nat}
    (splits : place = above ++ .name key :: inside) (lists : InLists inside)
    (nested : 2 ≤ inside.length → o.cls.memberRole key = .undeclared)
    (arrives : d.Arrives path target json above asked (.object members) wraps)
    (read : d.decodeObject ⟨path.segments ++ above⟩ asked (.object members) = .ok o)

/-- What belongs to an object still does if the value around it gets larger. -/
theorem Belongs.widen {outer : Json} {start : Path} {wanted : Option NodeClass} {segment : Segment}
    (same : path = start.push segment)
    (widens : ∀ place asked node wraps, d.Arrives path target json place asked node wraps →
      ∃ wraps', d.Arrives start wanted outer (segment :: place) asked node wraps')
    (belongs : d.Belongs path target json place) :
    d.Belongs start wanted outer (segment :: place) := by
  have longer : ∀ place, path.segments ++ place = start.segments ++ segment :: place := by
    intro place
    rw [same, Path.segments_push, List.append_assoc, List.singleton_append]
  cases belongs with
  | object arrives read =>
    obtain ⟨wraps, arrives⟩ := widens _ _ _ _ arrives
    exact .object arrives (longer _ ▸ read)
  | member splits lists nested arrives read =>
    obtain ⟨wraps, arrives⟩ := widens _ _ _ _ arrives
    exact .member (congrArg _ splits) lists nested arrives (longer _ ▸ read)

theorem Belongs.item {items : List Json} {position : Nat} {item : Json}
    (there : items[position]? = some item)
    (belongs : d.Belongs (path.item position) target item place) :
    d.Belongs path target (.list items) (.index position :: place) :=
  belongs.widen rfl fun _ _ _ wraps inside => ⟨wraps, .item there inside⟩

theorem Belongs.enter {value : Json} (read : d.decodeObject path target (.object members) = .ok o)
    (there : Members.get? members key = some value)
    (belongs : d.Belongs (path.member key) (d.registry.memberTarget o.cls key) value place) :
    d.Belongs path target (.object members) (.name key :: place) :=
  belongs.widen rfl fun _ _ _ _ inside => inside.enter read there

theorem inLists_nil : InLists [] := ⟨[], rfl⟩

theorem InLists.cons (inside : InLists place) (position : Nat) :
    InLists (.index position :: place) := by
  obtain ⟨positions, rfl⟩ := inside
  exact ⟨position :: positions, rfl⟩

/-- In a value from which something is read, every place belongs to an object or has only lists
around it, and only in the value of a member that is not declared can these be many. -/
structure Belonging (d : Decoder) (json : Json) : Prop where
  object : ∀ path target o place node, d.decodeObject path target json = .ok o →
    json.at? place = some node → d.Belongs path target json place
  references : ∀ context path target targets place node,
    d.decodeReferenceList context target path json = .ok targets →
      json.at? place = some node →
        (InLists place ∧ place.length ≤ 1) ∨ d.Belongs path target json place
  value : ∀ path value place node, d.decodeExtension path json = .ok value →
    json.at? place = some node → InLists place ∨ d.Belongs path none json place
  values : ∀ path values place node, d.decodeExtensionList path json = .ok values →
    json.at? place = some node → InLists place ∨ d.Belongs path none json place

/-- A place in a list is the list itself, or leads on from one of its elements. -/
theorem exists_of_at?_list {items : List Json} (found : (Json.list items).at? place = some node) :
    place = [] ∨ ∃ position rest item, place = .index position :: rest ∧
      items[position]? = some item ∧ item.at? rest = some node := by
  cases place with
  | nil => exact .inl rfl
  | cons segment place =>
    cases segment with
    | name key => cases found
    | index position =>
      obtain ⟨_, item, same, there, found⟩ := Json.exists_of_at?_index found
      cases same
      exact .inr ⟨position, place, item, rfl, there, found⟩

/-- Nothing stands inside a value that is neither a list nor an object. -/
theorem eq_nil_of_at? (notList : ∀ items, json ≠ .list items)
    (notObject : ∀ members, json ≠ .object members) (found : json.at? place = some node) :
    place = [] := by
  cases place with
  | nil => rfl
  | cons segment place =>
    cases segment with
    | name key =>
      obtain ⟨members, -, same, -⟩ := Json.exists_of_at?_name found
      exact absurd same (notObject members)
    | index position =>
      obtain ⟨items, -, same, -⟩ := Json.exists_of_at?_index found
      exact absurd same (notList items)

theorem eq_nil_of_scalar {kind : ScalarKind} {context : Context} {value : Scalar}
    (read : kind.decode context path json = .ok value) (found : json.at? place = some node) :
    place = [] := by
  refine eq_nil_of_at? (fun items same => ?_) (fun members same => ?_) found
  · subst same
    cases kind <;> cases read
  · subst same
    cases kind <;> cases read

theorem belongs_of_referenceOf {context : Context} {reference : Reference}
    (belonging : d.Belonging json)
    (read : referenceOf context path json (fun _ => d.decodeObject path target json) =
      .ok reference) (found : json.at? place = some node) :
    place = [] ∨ d.Belongs path target json place := by
  unfold referenceOf at read
  split at read
  · exact .inl (eq_nil_of_at? (by simp) (by simp) found)
  · obtain ⟨o, read, -⟩ := Outcome.map_eq_ok.mp read
    exact .inr (belonging.object path target o place node read found)

theorem belongs_of_readSlot {p : Property} {slot : Slot} (belonging : d.Belonging json)
    (reads : d.ReadsSlot p path json slot) (found : json.at? place = some node) :
    (InLists place ∧ place.length ≤ 1) ∨ d.Belongs path (d.registry.targetOf p) json place := by
  cases reads with
  | scalar _ _ read =>
    obtain rfl := eq_nil_of_scalar read found
    exact .inl ⟨inLists_nil, Nat.zero_le 1⟩
  | list _ _ read =>
    unfold decodeList at read
    split at read
    · rcases exists_of_at?_list found with rfl | ⟨position, rest, item, rfl, there, found⟩
      · exact .inl ⟨inLists_nil, Nat.zero_le 1⟩
      · obtain ⟨value, -, first⟩ := exists_value_of_decodeItems read there
        obtain rfl := eq_nil_of_scalar first found
        exact .inl ⟨inLists_nil.cons position, Nat.le_refl 1⟩
    · cases read
  | reference _ _ read =>
    rcases belongs_of_referenceOf belonging read found with rfl | belongs
    · exact .inl ⟨inLists_nil, Nat.zero_le 1⟩
    · exact .inr belongs
  | references _ _ read => exact belonging.references _ path _ _ place node read found

theorem belongs_of_readExtensions {values : List Extension} (belonging : d.Belonging json)
    (read : d.readExtensions path json = .ok values) (found : json.at? place = some node) :
    InLists place ∨ d.Belongs path none json place := by
  unfold readExtensions extensionsOf at read
  split at read
  · exact belonging.values path values place node read found
  · obtain ⟨value, read, -⟩ := Outcome.map_eq_ok.mp read
    exact belonging.value path value place node read found

/-- Members: the value of one is a scalar, a slot or a list of values of which each belongs. -/
theorem belongs_of_readMember {cls : NodeClass} {part : Part} (belonging : d.Belonging json)
    (typed : key = "@type" → ∃ type, json = .string type)
    (read : d.ReadsMember path cls key json part) (found : json.at? place = some node) :
    (InLists place ∧ (2 ≤ place.length → cls.memberRole key = .undeclared)) ∨
      d.Belongs (path.member key) (d.registry.memberTarget cls key) json place := by
  cases read with
  | type role =>
    obtain ⟨type, rfl⟩ := typed (NodeClass.Means.of_memberRole role)
    obtain rfl := eq_nil_of_at? (by simp) (by simp) found
    exact .inl ⟨inLists_nil, nofun⟩
  | id _ read =>
    obtain ⟨rfl, -⟩ := decodeId_eq_ok.mp read
    obtain rfl := eq_nil_of_at? (by simp) (by simp) found
    exact .inl ⟨inLists_nil, nofun⟩
  | slot role there read =>
    rw [Registry.memberTarget_of_declared role there]
    rcases belongs_of_readSlot belonging read found with ⟨lists, short⟩ | belongs
    · exact .inl ⟨lists, fun nested => by omega⟩
    · exact .inr belongs
  | extension role read =>
    rw [Registry.memberTarget_of_undeclared role]
    have belongs := belongs_of_readExtensions belonging read found
    exact belongs.imp_left fun lists => ⟨lists, fun _ => role⟩

theorem belongs_of_members (each : ∀ m ∈ members, d.Belonging m.2)
    (read : d.decodeObject path target (.object members) = .ok o)
    (found : (Json.object members).at? place = some node) :
    d.Belongs path target (.object members) place := by
  cases place with
  | nil => exact .object .here (by rwa [List.append_nil])
  | cons segment place =>
    cases segment with
    | index position => cases found
    | name key =>
      obtain ⟨_, value, same, there, found⟩ := Json.exists_of_at?_name found
      cases same
      obtain ⟨type, cls, typed, reads⟩ := exists_class_of_decodeObject read
      obtain ⟨rfl, -⟩ := typed_of_decodeMembers reads
      obtain ⟨parts, reads, -⟩ := (decodeMembers_eq_ok (Object.shaped_ofType _ type)).mp reads
      have among := Members.mem_of_get? there
      have brought := List.mem_map_of_mem (f := fun m => d.readMember path o.cls m.1 m.2) among
      replace reads : members.map (fun m => d.readMember path o.cls m.1 m.2) = parts.map .ok :=
        reads
      rw [reads] at brought
      obtain ⟨part, -, same⟩ := List.mem_map.mp brought
      have strings : key = "@type" → ∃ type, value = .string type := by
        rintro rfl
        exact ⟨type, Option.some.inj (there.symm.trans typed)⟩
      rcases belongs_of_readMember (each _ among) strings (readMember_eq_ok.mp same.symm) found with
        ⟨lists, nested⟩ | belongs
      · exact .member (List.nil_append _).symm lists nested .here (by rwa [List.append_nil])
      · exact belongs.enter read there

theorem belongs_of_items {α : Type} {decode : Path → Json → Decoded α} {items : List Json}
    {values : List α}
    (each : ∀ item ∈ items, ∀ path value place node, decode path item = .ok value →
      item.at? place = some node → InLists place ∨ d.Belongs path target item place)
    (read : decodeItems decode path 0 items = .ok values)
    (found : (Json.list items).at? place = some node) :
    InLists place ∨ d.Belongs path target (.list items) place := by
  rcases exists_of_at?_list found with rfl | ⟨position, rest, item, rfl, there, found⟩
  · exact .inl inLists_nil
  · obtain ⟨value, -, first⟩ := exists_value_of_decodeItems read there
    rw [Nat.zero_add] at first
    have belongs := each item (List.mem_of_getElem? there) _ value rest node first found
    exact belongs.imp (fun lists => lists.cons position) (fun belongs => belongs.item there)

/-- Every place of a value that is read belongs to an object, by induction on what is inside the
value. -/
theorem belonging (d : Decoder) (json : Json) : d.Belonging json := by
  induction json using Json.induct with
  | null | bool | integer | float | string =>
    refine ⟨fun path target o place node read => ?_, fun _ _ _ _ _ _ read => ?_,
      fun path value place node _ found => ?_, fun _ _ _ _ read => ?_⟩
    · cases readsObject_of_decodeObject read
    · cases read
    · obtain rfl := eq_nil_of_at? (by simp) (by simp) found
      exact .inl inLists_nil
    · cases read
  | list items ih =>
    have values : ∀ path values place node, d.decodeExtensions path 0 items = .ok values →
        (Json.list items).at? place = some node →
          InLists place ∨ d.Belongs path none (.list items) place := by
      intro path values place node read found
      rw [decodeExtensions_eq] at read
      refine belongs_of_items (fun item among path value place node => ?_) read found
      exact (ih item among).value path value place node
    refine ⟨fun path target o place node read => ?_,
      fun context path target targets place node read found => ?_,
      fun path value place node read found => ?_, values⟩
    · cases readsObject_of_decodeObject read
    · rw [decodeReferenceList, decodeReferences_eq] at read
      rcases exists_of_at?_list found with rfl | ⟨position, rest, item, rfl, there, found⟩
      · exact .inl ⟨inLists_nil, Nat.zero_le 1⟩
      · obtain ⟨reference, -, first⟩ := exists_value_of_decodeItems read there
        rw [Nat.zero_add] at first
        rcases belongs_of_referenceOf (ih item (List.mem_of_getElem? there)) first found with
          rfl | belongs
        · exact .inl ⟨inLists_nil.cons position, Nat.le_refl 1⟩
        · exact .inr (belongs.item there)
    · obtain ⟨inner, read, -⟩ := Outcome.map_eq_ok.mp read
      exact values path inner place node read found
  | object members ih =>
    refine ⟨fun path target o place node read found => belongs_of_members ih read found,
      fun _ _ _ _ _ _ read => ?_, fun path value place node read found => ?_,
      fun _ _ _ _ read => ?_⟩
    · cases read
    · obtain ⟨o, read, -⟩ := Outcome.map_eq_ok.mp read
      exact .inr (belongs_of_members ih read found)
    · cases read

/-! ## Lists in lists -/

/-- A list in a list, and so on, this many times. -/
def nestedList : Nat → Json
  | 0 => .list []
  | depth + 1 => .list [nestedList depth]

theorem ordered_nestedList (depth : Nat) : (nestedList depth).Ordered := by
  induction depth with
  | zero => exact .list nofun
  | succ depth ih => exact .list (List.forall_mem_singleton.mpr ih)

theorem at?_nestedList (depth : Nat) :
    (nestedList depth).at? (List.replicate depth (.index 0)) = some (.list []) := by
  induction depth with
  | zero => rfl
  | succ depth ih => exact ih

/-- Lists are read as values of an undeclared member however often they are nested. -/
theorem exists_decodeExtensionList (d : Decoder) (path : Path) (depth : Nat) :
    ∃ values, d.decodeExtensionList path (nestedList depth) = .ok values := by
  induction depth generalizing path with
  | zero => exact ⟨[], rfl⟩
  | succ depth ih =>
    obtain ⟨values, read⟩ := ih (path.item 0)
    have inner : d.decodeExtension (path.item 0) (nestedList depth) = .ok (.list values) := by
      cases depth <;> exact Outcome.map_eq_ok.mpr ⟨values, read, rfl⟩
    refine ⟨[.list values], ?_⟩
    show d.decodeExtensions path 0 [nestedList depth] = _
    rw [decodeExtensions_eq, decodeItems, inner]
    rfl

/-- An object with nested lists under a key that its class does not declare. -/
def listHolder (type key : String) (depth : Nat) : List (String × Json) :=
  Members.insert [("@type", .string type)] key (nestedList depth)

theorem exists_decodeObject_listHolder {type : String} {c : NodeClass}
    (known : d.registry.get? type = some c) (concrete : c.isAbstract = false)
    (role : c.memberRole key = .undeclared) (depth : Nat) :
    ∃ o, d.decodeObject .root none (.object (listHolder type key depth)) = .ok o := by
  have notType : "@type" ≠ key := by
    rintro rfl
    cases (NodeClass.memberRole_type c).symm.trans role
  have typed : Members.get? (listHolder type key depth) "@type" = some (.string type) := by
    rw [listHolder, Members.get?_insert, if_neg notType]
    rfl
  have chosen : d.registry.Chosen False none type c := .named known nofun concrete
  have only := (choose_of_chosen .root chosen).resolve_right And.left
  rw [decodeObject_of_only (Nat.zero_le _) (typeName_eq_ok.mpr typed) only]
  have each : ∀ m ∈ listHolder type key depth, ∃ part, d.readMember .root c m.1 m.2 = .ok part := by
    intro m among
    rcases Members.mem_insert among with rfl | among
    · obtain ⟨values, read⟩ := exists_decodeExtensionList d (Path.root.member key) depth
      refine ⟨.extension key values, readMember_eq_ok.mpr (.extension role ?_)⟩
      cases depth <;> exact read
    · obtain rfl := List.mem_singleton.mp among
      exact ⟨.nothing, readMember_eq_ok.mpr (.type (NodeClass.memberRole_type c))⟩
  obtain ⟨parts, reads⟩ := Outcome.exists_map_ok_iff.mpr each
  exact ⟨_, (decodeMembers_eq_ok (Object.shaped_ofType c type)).mpr ⟨parts, reads, rfl⟩⟩

theorem ordered_listHolder (type key : String) (depth : Nat) :
    (Json.object (listHolder type key depth)).Ordered := by
  refine .object (Members.sorted_insert (List.pairwise_singleton _ _) _ _) fun m among => ?_
  rcases Members.mem_insert among with rfl | among
  · exact ordered_nestedList depth
  · obtain rfl := List.mem_singleton.mp among
    exact .string type

/-- In a value that is read at the root every path is at most two steps longer than the limit,
except that of what stands in a list in a list, which stand in the value of a member that is not
declared, of an object that was read on the way. These lists are not bounded: whatever the limit is,
an object of a class that has a key which is not declared is read with any number of lists in lists
under it. -/
theorem length_le_of_at? (d : Decoder) :
    (∀ target json o place node, d.decodeObject .root target json = .ok o →
      json.at? place = some node →
        place.length ≤ d.maxDepth + 2 ∨
        ∃ above key inside asked members reader wraps,
          place = above ++ .name key :: inside ∧ InLists inside ∧ 2 ≤ inside.length ∧
            d.Arrives .root target json above asked (.object members) wraps ∧
            d.decodeObject ⟨above⟩ asked (.object members) = .ok reader ∧
            reader.cls.memberRole key = .undeclared) ∧
    ∀ type c key, d.registry.get? type = some c → c.isAbstract = false →
      c.memberRole key = .undeclared → ∀ depth, ∃ json o,
        json.Ordered ∧ d.decodeObject .root none json = .ok o ∧
          json.at? (.name key :: List.replicate depth (.index 0)) = some (.list []) := by
  refine ⟨fun target json o place node read found => ?_,
    fun type c key known concrete role depth => ?_⟩
  · cases (belonging d json).object .root target o place node read found with
    | object _ read =>
      have within : place.length ≤ d.maxDepth := length_le_of_decodeObject read
      omega
    | @member above inside key asked members reader wraps splits lists nested arrives read =>
      have within : above.length ≤ d.maxDepth := length_le_of_decodeObject read
      by_cases deep : 2 ≤ inside.length
      · exact .inr ⟨above, key, inside, asked, members, reader, wraps, splits, lists, deep, arrives,
          read, nested deep⟩
      · subst splits
        simp only [List.length_append, List.length_cons]
        omega
  · obtain ⟨o, read⟩ := exists_decodeObject_listHolder known concrete role depth
    refine ⟨_, o, ordered_listHolder type key depth, read, ?_⟩
    rw [Json.at?_name, listHolder, Members.get?_insert, if_pos rfl]
    exact at?_nestedList depth

end Decoder

namespace Sample

/-- A hamper declares nothing. -/
def hamper : ClassDecl where
  iri := "ex:P"
  compact := some "P"
  nodeKind := none
  idAlias := none
  isAbstract := false
  extensible := some true
  parents := []
  properties := []

def hamperRegistry : Registry := (Registry.build "" [hamper]).toOption.getD ⟨"", [], []⟩

/-- A hamper with lists in lists. -/
def fullHamper : Json := .object
  [("@type", .string "P"), ("x", .list [.list [.list [.string "a"]]])]

end Sample

/-- Without any depth allowed, a text is read that stands four steps deep. -/
theorem Sample.fullHamper_deep :
    (∃ o, (Decoder.mk Sample.hamperRegistry 0).decodeObject .root none Sample.fullHamper = .ok o) ∧
      ∃ place, Sample.fullHamper.at? place = some (.string "a") ∧ ¬place.length ≤ 0 + 2 :=
  ⟨⟨_, rfl⟩, [.name "x", .index 0, .index 0, .index 0], rfl, by decide⟩

theorem Sample.fullHamper_listed :
    (∃ above key inside asked members reader wraps,
      [.name "x", .index 0, .index 0, .index 0] = above ++ Segment.name key :: inside ∧
        Decoder.InLists inside ∧ 2 ≤ inside.length ∧
        (Decoder.mk Sample.hamperRegistry 0).Arrives .root none Sample.fullHamper above asked
          (.object members) wraps ∧
        (Decoder.mk Sample.hamperRegistry 0).decodeObject ⟨above⟩ asked (.object members) =
          .ok reader ∧
        reader.cls.memberRole key = .undeclared) ∧
    ∃ json o, json.Ordered ∧
      (Decoder.mk Sample.hamperRegistry 0).decodeObject .root none json = .ok o ∧
        json.at? (.name "x" :: List.replicate 99 (.index 0)) = some (.list []) := by
  obtain ⟨bounded, unbounded⟩ := (Decoder.mk Sample.hamperRegistry 0).length_le_of_at?
  obtain ⟨o, read⟩ : ∃ o, (Decoder.mk Sample.hamperRegistry 0).decodeObject .root none
      Sample.fullHamper = .ok o := ⟨_, rfl⟩
  obtain ⟨c, known⟩ : ∃ c, Sample.hamperRegistry.get? "P" = some c := ⟨_, rfl⟩
  refine ⟨?_, unbounded "P" c "x" known ?_ ?_ 99⟩
  · have beside := bounded none Sample.fullHamper o
      [.name "x", .index 0, .index 0, .index 0] (.string "a") read rfl
    exact beside.resolve_left (by decide)
  · cases known
    rfl
  · cases known
    rfl

end ShapedGraph

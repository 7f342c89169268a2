import ShapedGraph.Proofs.Choice
import ShapedGraph.Proofs.Json
import ShapedGraph.Proofs.Keys
import ShapedGraph.Proofs.Reading

/-! The grammar of the JSON objects that stand for objects of a registry, said without reading them:
which classes a type name admits at a place, and what each member of an object of a class may hold.
Reading succeeds exactly on what the grammar admits, as long as no object is nested too deeply. -/

namespace ShapedGraph

/-- The floating point number nearest to a JSON number. -/
def Json.nearestFloat? : Json → Option Binary64
  | .integer n => some (.ofInt n)
  | .float x => some x
  | _ => none

/-- What a single value of a kind may be written as. -/
inductive ScalarKind.Admits (context : Context) : ScalarKind → Json → Prop where
  | string (text : String) : Admits context .string (.string text)
  | iri {text : String} (shaped : isIdentifier (context.expand text) = true) :
    Admits context .iri (.string text)
  | boolean (b : Bool) : Admits context .boolean (.bool b)
  | integer {n : Int} (least : Int64.minValue.toInt ≤ n) (most : n ≤ Int64.maxValue.toInt) :
    Admits context .integer (.integer n)
  /-- A number without a fraction counts as an integer. -/
  | whole {json : Json} {x : Binary64} {n : Int} (number : json.nearestFloat? = some x)
    (whole : x.toInt? = some n) (least : Int64.minValue.toInt ≤ n)
    (most : n ≤ Int64.maxValue.toInt) : Admits context .integer json
  | float {json : Json} {x : Binary64} (number : json.nearestFloat? = some x) :
    Admits context .float json
  | floatText {text : String} {x : Binary64} (read : Binary64.parse? text = some x) :
    Admits context .float (.string text)
  | dateTime {text : String} {t : DateTime} (read : DateTime.ofChars? false text.toList = some t) :
    Admits context .dateTime (.string text)
  | dateTimeStamp {text : String} {t : DateTime}
    (read : DateTime.ofChars? true text.toList = some t) :
    Admits context .dateTimeStamp (.string text)

namespace Registry

/-- The classes that a type name admits at a place: the class that it names, the extensible class
that the place asks for, or any extensible class that fits the place. -/
inductive Admits (registry : Registry) (target : Option NodeClass) (type : String)
    (cls : NodeClass) : Prop where
  | named (known : registry.get? type = some cls) (concrete : cls.isAbstract = false)
    (fits : ∀ t, target = some t → cls.isSubclassOf t.iri = true)
  | wanted (unknown : registry.get? type = none) (wanted : target = some cls)
    (extensible : cls.isExtensible = true)
  | fitting (unknown : registry.get? type = none) (shaped : isIri type = true)
    (closed : ∀ t, target = some t → t.isExtensible = false) (registered : cls ∈ registry.classes)
    (extensible : cls.isExtensible = true) (concrete : cls.isAbstract = false)
    (fits : ∀ t, target = some t → cls.isSubclassOf t.iri = true)

mutual

/-- The value is an object whose type name admits some class at the place, and each of its other
members may stand in an object of that class. -/
inductive Conforms (registry : Registry) : Option NodeClass → Json → Prop where
  | object {target : Option NodeClass} {members : List (String × Json)} {type : String}
    {cls : NodeClass} (typed : Members.get? members "@type" = some (.string type))
    (admits : registry.Admits target type cls)
    (each : ∀ m ∈ members, m.1 ≠ "@type" → ConformsMember registry cls m.1 m.2) :
    Conforms registry target (.object members)

/-- A member other than the type of an object of a class: its identifier, a property of the layout,
or what an extensible class does not declare. -/
inductive ConformsMember (registry : Registry) : NodeClass → String → Json → Prop where
  | id {cls : NodeClass} {key text : String} (same : key = cls.idKey)
    (shaped : isIdentifier text = true) : ConformsMember registry cls key (.string text)
  | declared {cls : NodeClass} {key : String} {place : Nat} {p : Property} {json : Json}
    (free : cls.Unreserved key) (stands : cls.StandsFor key place p)
    (content : ConformsContent registry p json) : ConformsMember registry cls key json
  | undeclared {cls : NodeClass} {key : String} {json : Json} (free : cls.Unreserved key)
    (extensible : cls.isExtensible = true) (unclaimed : ∀ p ∈ cls.layout, key ∉ p.keys)
    (value : ConformsValue registry json) : ConformsMember registry cls key json

/-- The content of a property: a single item or a list of them. -/
inductive ConformsContent (registry : Registry) : Property → Json → Prop where
  | single {p : Property} {json : Json} (single : p.isList = false)
    (item : ConformsItem registry p json) : ConformsContent registry p json
  | list {p : Property} {items : List Json} (many : p.isList = true)
    (each : ∀ item ∈ items, ConformsItem registry p item) :
    ConformsContent registry p (.list items)

/-- One item of a property: a scalar of its kind, or an object of its class or an IRI in its
place. -/
inductive ConformsItem (registry : Registry) : Property → Json → Prop where
  | scalar {p : Property} {kind : ScalarKind} {json : Json} (holds : p.kind = .scalar kind)
    (admits : kind.Admits p.context json) : ConformsItem registry p json
  | iri {p : Property} {cls text : String} (holds : p.kind = .object cls)
    (shaped : isIdentifier (p.context.expand text) = true) : ConformsItem registry p (.string text)
  | object {p : Property} {cls : String} {json : Json} (holds : p.kind = .object cls)
    (conforms : Conforms registry (registry.targetOf p) json) : ConformsItem registry p json

/-- A value of an undeclared member: anything without nulls whose objects conform on their own. -/
inductive ConformsValue (registry : Registry) : Json → Prop where
  | bool (b : Bool) : ConformsValue registry (.bool b)
  | integer (n : Int) : ConformsValue registry (.integer n)
  | float (x : Binary64) : ConformsValue registry (.float x)
  | string (s : String) : ConformsValue registry (.string s)
  | list {items : List Json} (each : ∀ item ∈ items, ConformsValue registry item) :
    ConformsValue registry (.list items)
  | object {members : List (String × Json)}
    (conforms : Conforms registry none (.object members)) :
    ConformsValue registry (.object members)

end

variable {registry : Registry} {target : Option NodeClass} {type : String} {cls : NodeClass}

theorem chosen_iff_admits :
    registry.Chosen True target type cls ↔ registry.Admits target type cls := by
  constructor
  · intro chosen
    cases chosen with
    | named known fits concrete => exact .named known concrete fits
    | wanted unknown wanted extensible => exact .wanted unknown wanted extensible
    | found _ unknown shaped closed candidate =>
      obtain ⟨registered, extensible, concrete, fits⟩ := mem_candidates.mp candidate
      exact .fitting unknown shaped closed registered extensible concrete fits
  · intro admits
    cases admits with
    | named known concrete fits => exact .named known fits concrete
    | wanted unknown wanted extensible => exact .wanted unknown wanted extensible
    | fitting unknown shaped closed registered extensible concrete fits =>
      have candidate := mem_candidates.mpr ⟨registered, extensible, concrete, fits⟩
      exact .found trivial unknown shaped closed candidate

end Registry

/-! ## Scalars -/

namespace Scalar

theorem exists_toInt64?_iff {n : Int} : (∃ word, toInt64? n = some word) ↔
    Int64.minValue.toInt ≤ n ∧ n ≤ Int64.maxValue.toInt := by
  unfold toInt64?
  split
  · rename_i fits
    exact ⟨fun _ => fits, fun _ => ⟨_, rfl⟩⟩
  · rename_i large
    exact ⟨nofun, fun fits => absurd fits large⟩

theorem exists_integerOfFloat_iff {path : Path} {x : Binary64} :
    (∃ word, integerOfFloat path x = .ok word) ↔
      ∃ n, x.toInt? = some n ∧ Int64.minValue.toInt ≤ n ∧ n ≤ Int64.maxValue.toInt := by
  simp only [← exists_toInt64?_iff]
  unfold integerOfFloat
  constructor
  · rintro ⟨word, h⟩
    split at h
    · rename_i word' fits
      obtain ⟨n, whole, fits⟩ := Option.bind_eq_some_iff.mp fits
      exact ⟨n, whole, word', fits⟩
    · cases h
  · rintro ⟨n, whole, word, fits⟩
    rw [whole, Option.bind_some, fits]
    exact ⟨word, rfl⟩

theorem exists_decodeInteger_iff {context : Context} {path : Path} {json : Json} :
    (∃ word, decodeInteger path json = .ok word) ↔ ScalarKind.Admits context .integer json := by
  constructor
  · rintro ⟨word, h⟩
    cases json with
    | integer n =>
      rw [decodeInteger] at h
      split at h
      · rename_i fits
        obtain ⟨least, most⟩ := exists_toInt64?_iff.mp ⟨_, fits⟩
        exact .integer least most
      · obtain ⟨m, whole, least, most⟩ := exists_integerOfFloat_iff.mp ⟨_, h⟩
        exact .whole rfl whole least most
    | float x =>
      obtain ⟨n, whole, least, most⟩ := exists_integerOfFloat_iff.mp ⟨_, h⟩
      exact .whole rfl whole least most
    | _ => cases h
  · intro admits
    cases admits with
    | integer least most =>
      obtain ⟨word, fits⟩ := exists_toInt64?_iff.mpr ⟨least, most⟩
      rw [decodeInteger, fits]
      exact ⟨word, rfl⟩
    | whole number whole least most =>
      have read : ∃ word, integerOfFloat path _ = .ok word :=
        exists_integerOfFloat_iff.mpr ⟨_, whole, least, most⟩
      cases json with
      | integer n =>
        cases number
        rw [decodeInteger]
        split
        · exact ⟨_, rfl⟩
        · exact read
      | float x =>
        cases number
        exact read
      | _ => cases number

theorem exists_decodeFloat_iff {context : Context} {path : Path} {json : Json} :
    (∃ x, decodeFloat path json = .ok x) ↔ ScalarKind.Admits context .float json := by
  constructor
  · rintro ⟨x, h⟩
    cases json with
    | integer | float => exact .float rfl
    | string text =>
      rw [decodeFloat] at h
      split at h
      · rename_i read
        exact .floatText read
      · cases h
    | _ => cases h
  · intro admits
    cases admits with
    | float number =>
      cases json with
      | integer | float => exact ⟨_, rfl⟩
      | _ => cases number
    | floatText read =>
      rw [decodeFloat, read]
      exact ⟨_, rfl⟩

end Scalar

theorem Scalar.exists_decodeDateTime_iff {required : Bool} {path : Path} {json : Json} :
    (∃ t, Scalar.decodeDateTime required path json = .ok t) ↔
      ∃ text t, json = .string text ∧ DateTime.ofChars? required text.toList = some t := by
  simp only [Scalar.decodeDateTime_eq_ok]
  exact exists_comm

theorem ScalarKind.exists_decode_iff {kind : ScalarKind} {context : Context} {path : Path}
    {json : Json} : (∃ value, kind.decode context path json = .ok value) ↔
      kind.Admits context json := by
  cases kind with
  | string =>
    rw [decode, Outcome.exists_map_eq_ok]
    simp only [Scalar.decodeString_eq_ok]
    constructor
    · rintro ⟨text, rfl⟩
      exact .string text
    · intro admits
      cases admits with
      | string text => exact ⟨text, rfl⟩
  | iri =>
    rw [decode, Outcome.exists_map_eq_ok]
    simp only [Scalar.decodeIri_eq_ok]
    constructor
    · rintro ⟨_, text, rfl, rfl, shaped⟩
      exact .iri shaped
    · intro admits
      cases admits with
      | iri shaped => exact ⟨_, _, rfl, rfl, shaped⟩
  | boolean =>
    rw [decode, Outcome.exists_map_eq_ok]
    constructor
    · rintro ⟨b, read⟩
      cases json with
      | bool => exact .boolean _
      | _ => cases read
    · intro admits
      cases admits with
      | boolean b => exact ⟨b, rfl⟩
  | integer => rw [decode, Outcome.exists_map_eq_ok, Scalar.exists_decodeInteger_iff]
  | float => rw [decode, Outcome.exists_map_eq_ok, Scalar.exists_decodeFloat_iff]
  | dateTime =>
    rw [decode, Outcome.exists_map_eq_ok, Scalar.exists_decodeDateTime_iff]
    constructor
    · rintro ⟨text, t, rfl, read⟩
      exact .dateTime read
    · intro admits
      cases admits with
      | dateTime read => exact ⟨_, _, rfl, read⟩
  | dateTimeStamp =>
    rw [decode, Outcome.exists_map_eq_ok, Scalar.exists_decodeDateTime_iff]
    constructor
    · rintro ⟨text, t, rfl, read⟩
      exact .dateTimeStamp read
    · intro admits
      cases admits with
      | dateTimeStamp read => exact ⟨_, _, rfl, read⟩

/-! ## Lists -/

/-- A list is read exactly if each item would be, wherever it stood. -/
theorem exists_decodeItems_iff {α : Type} {decode : Path → Json → Decoded α} {P : Json → Prop}
    {path : Path} {items : List Json} (each : ∀ item ∈ items, ∀ position,
      (∃ value, decode (path.item position) item = .ok value) ↔ P item) (position : Nat) :
    (∃ values, decodeItems decode path position items = .ok values) ↔ ∀ item ∈ items, P item := by
  induction items generalizing position with
  | nil => exact ⟨fun _ => nofun, fun _ => ⟨[], rfl⟩⟩
  | cons item items ih =>
    obtain ⟨here, later⟩ := List.forall_mem_cons.mp each
    rw [decodeItems, List.forall_mem_cons, ← here position, ← ih later (position + 1)]
    constructor
    · rintro ⟨values, h⟩
      obtain ⟨value, first, h⟩ := Outcome.bind_eq_ok.mp h
      obtain ⟨rest, reads, -⟩ := Outcome.bind_eq_ok.mp h
      exact ⟨⟨value, first⟩, ⟨rest, reads⟩⟩
    · rintro ⟨⟨value, first⟩, ⟨rest, reads⟩⟩
      rw [first]
      exact ⟨_, Outcome.bind_eq_ok.mpr ⟨_, rfl, Outcome.bind_eq_ok.mpr ⟨_, reads, rfl⟩⟩⟩

theorem exists_decodeList_iff {α : Type} {decode : Path → Json → Decoded α} {P : Json → Prop}
    (each : ∀ path item, (∃ value, decode path item = .ok value) ↔ P item) {path : Path}
    {json : Json} : (∃ values, decodeList decode path json = .ok values) ↔
      ∃ items, json = .list items ∧ ∀ item ∈ items, P item := by
  constructor
  · rintro ⟨values, h⟩
    cases json with
    | list items =>
      exact ⟨items, rfl, (exists_decodeItems_iff (fun item _ _ => each _ item) 0).mp ⟨values, h⟩⟩
    | _ => cases h
  · rintro ⟨items, rfl, all⟩
    exact (exists_decodeItems_iff (fun item _ _ => each _ item) 0).mpr all

namespace Decoder

variable {d : Decoder}

/-! ## Objects -/

/-- Reading a value succeeds exactly if the grammar admits it, whatever is read from it. -/
structure DecidesGrammar (d : Decoder) (json : Json) : Prop where
  object : ∀ path target, json.staysWithin d.maxDepth path.length = true →
    ((∃ o, d.decodeObject path target json = .ok o) ↔ d.registry.Conforms target json)
  references : ∀ p cls path, p.kind = .object cls →
    json.staysWithin d.maxDepth path.length = true →
      ((∃ targets, d.decodeReferenceList p.context (d.registry.targetOf p) path json =
        .ok targets) ↔
          ∃ items, json = .list items ∧ ∀ item ∈ items, d.registry.ConformsItem p item)
  value : ∀ path, json.staysWithin d.maxDepth path.length = true →
    ((∃ value, d.decodeExtension path json = .ok value) ↔ d.registry.ConformsValue json)

variable {path : Path} {json : Json} {p : Property} {cls : NodeClass} {key : String}
  {target : Option NodeClass}

/-- An object is read exactly if some class that its type name admits reads its members. -/
theorem exists_decodeObject_iff {members : List (String × Json)}
    (within : path.length ≤ d.maxDepth) :
    (∃ o, d.decodeObject path target (.object members) = .ok o) ↔
      ∃ type cls, Members.get? members "@type" = some (.string type) ∧
        d.registry.Admits target type cls ∧
          ∃ o, d.decodeMembers path members (.ofType cls type) = .ok o := by
  simp only [← Registry.chosen_iff_admits]
  constructor
  · rintro ⟨o, h⟩
    cases readsObject_of_decodeObject h with
    | only typed only read => exact ⟨_, _, typed, chosen_of_only only, o, read⟩
    | searched typed first among read =>
      obtain ⟨unknown, shaped, closed, rfl⟩ := found_of_firstOf first among
      exact ⟨_, _, typed, .found trivial unknown shaped closed among, o, read⟩
  · rintro ⟨type, cls, typed, chosen, o, read⟩
    have named : typeName path members = .ok type := typeName_eq_ok.mpr typed
    rcases choose_of_chosen path chosen with only | ⟨-, among, first⟩
    · exact ⟨o, by rw [decodeObject_of_only within named only, read]⟩
    · -- The search ends, as one of the candidates reads the members.
      simp only [decodeObject_of_firstOf within named first]
      refine Option.ne_none_iff_exists'.mp fun missing => ?_
      have fails := List.findSome?_eq_none_iff.mp missing cls among
      rw [read] at fails
      cases fails

theorem exists_referenceOf_iff {name : String} (holds : p.kind = .object name)
    (object : (∃ o, d.decodeObject path (d.registry.targetOf p) json = .ok o) ↔
      d.registry.Conforms (d.registry.targetOf p) json) :
    (∃ reference, referenceOf p.context path json (fun _ =>
      d.decodeObject path (d.registry.targetOf p) json) = .ok reference) ↔
        d.registry.ConformsItem p json := by
  have conforms : d.registry.ConformsItem p json → (∀ text, json ≠ .string text) →
      d.registry.Conforms (d.registry.targetOf p) json := by
    intro item notString
    cases item with
    | scalar holds' => cases holds.symm.trans holds'
    | iri => exact absurd rfl (notString _)
    | object _ conforms => exact conforms
  cases json with
  | string text =>
    rw [referenceOf, Outcome.exists_map_eq_ok]
    simp only [Scalar.decodeIri_eq_ok]
    constructor
    · rintro ⟨_, _, same, rfl, shaped⟩
      cases same
      exact .iri holds shaped
    · intro item
      cases item with
      | scalar holds' => cases holds.symm.trans holds'
      | iri _ shaped => exact ⟨_, text, rfl, rfl, shaped⟩
      | object _ conforms => cases conforms
  | _ =>
    unfold referenceOf
    rw [Outcome.exists_map_eq_ok, object]
    exact ⟨.object holds, fun item => conforms item nofun⟩

theorem exists_readSlot_iff (decides : d.DecidesGrammar json)
    (within : json.staysWithin d.maxDepth path.length = true) :
    (∃ slot, d.readSlot p path json = .ok slot) ↔ d.registry.ConformsContent p json := by
  have scalars : ∀ kind : ScalarKind,
      (∃ values, decodeList (kind.decode p.context) path json = .ok values) ↔
        ∃ items, json = .list items ∧ ∀ item ∈ items, kind.Admits p.context item :=
    fun kind => exists_decodeList_iff (P := kind.Admits p.context) fun _ _ =>
      ScalarKind.exists_decode_iff
  have object := decides.object path (d.registry.targetOf p) within
  simp only [readSlot_eq_ok]
  constructor
  · rintro ⟨slot, reads⟩
    cases reads with
    | scalar holds single read =>
      exact .single single (.scalar holds (ScalarKind.exists_decode_iff.mp ⟨_, read⟩))
    | list holds many read =>
      obtain ⟨items, rfl, each⟩ := (scalars _).mp ⟨_, read⟩
      exact .list many fun item hi => .scalar holds (each item hi)
    | reference holds single read =>
      exact .single single ((exists_referenceOf_iff holds object).mp ⟨_, read⟩)
    | references holds many read =>
      obtain ⟨items, rfl, each⟩ := (decides.references p _ path holds within).mp ⟨_, read⟩
      exact .list many each
  · intro content
    cases holds : p.kind with
    | scalar kind =>
      have admits : ∀ item, d.registry.ConformsItem p item → kind.Admits p.context item := by
        intro item conforms
        cases conforms with
        | scalar holds' admits =>
          cases holds.symm.trans holds'
          exact admits
        | iri holds' | object holds' => cases holds.symm.trans holds'
      cases content with
      | single single item =>
        obtain ⟨value, read⟩ := ScalarKind.exists_decode_iff.mpr (admits _ item)
        exact ⟨_, .scalar holds single read⟩
      | list many each =>
        obtain ⟨values, read⟩ :=
          (scalars kind).mpr ⟨_, rfl, fun item hi => admits item (each item hi)⟩
        exact ⟨_, .list holds many read⟩
    | object name =>
      cases content with
      | single single item =>
        obtain ⟨reference, read⟩ := (exists_referenceOf_iff holds object).mpr item
        exact ⟨_, .reference holds single read⟩
      | list many each =>
        obtain ⟨targets, read⟩ := (decides.references p name path holds within).mpr ⟨_, rfl, each⟩
        exact ⟨_, .references holds many read⟩

theorem exists_readExtensions_iff : (∃ values, d.readExtensions path json = .ok values) ↔
    ∃ value, d.decodeExtension path json = .ok value := by
  unfold readExtensions decodeExtension
  -- Only for a list do the two differ: one gives its values and the other a list of them.
  cases json with
  | list items => exact Outcome.exists_map_eq_ok.symm
  | _ => exact Outcome.exists_map_eq_ok

theorem exists_readMember_iff (decides : d.DecidesGrammar json)
    (within : json.staysWithin d.maxDepth (path.length + 1) = true) :
    (∃ part, d.readMember path cls key json = .ok part) ↔
      (key ≠ "@type" → d.registry.ConformsMember cls key json) := by
  rw [← Path.length_member path key] at within
  simp only [readMember_eq_ok]
  constructor
  · rintro ⟨part, reads⟩ notType
    cases reads with
    | type role => exact absurd (NodeClass.Means.of_memberRole role) notType
    | id role read =>
      obtain ⟨rfl, shaped⟩ := decodeId_eq_ok.mp read
      exact .id (NodeClass.memberRole_eq_id_iff.mp role).2 shaped
    | slot role there read =>
      obtain ⟨free, q, stands⟩ := NodeClass.memberRole_eq_declared_iff.mp role
      cases stands.there.symm.trans there
      exact .declared free stands
        ((exists_readSlot_iff decides within).mp ⟨_, readSlot_eq_ok.mpr read⟩)
    | extension role read =>
      obtain ⟨free, extensible, unclaimed⟩ := NodeClass.memberRole_eq_undeclared_iff.mp role
      exact .undeclared free extensible unclaimed
        ((decides.value _ within).mp (exists_readExtensions_iff.mp ⟨_, read⟩))
  · intro conforms
    by_cases type : key = "@type"
    · subst type
      exact ⟨.nothing, .type cls.memberRole_type⟩
    · cases conforms type with
      | id same shaped =>
        exact ⟨_, .id (NodeClass.memberRole_eq_id_iff.mpr ⟨type, same⟩)
          (decodeId_eq_ok.mpr ⟨rfl, shaped⟩)⟩
      | declared free stands content =>
        obtain ⟨slot, read⟩ := (exists_readSlot_iff decides within).mpr content
        exact ⟨_, .slot (NodeClass.memberRole_eq_declared_iff.mpr ⟨free, _, stands⟩) stands.there
          (readSlot_eq_ok.mp read)⟩
      | undeclared free extensible unclaimed value =>
        obtain ⟨values, read⟩ :=
          exists_readExtensions_iff.mpr ((decides.value _ within).mpr value)
        exact ⟨_, .extension
          (NodeClass.memberRole_eq_undeclared_iff.mpr ⟨free, extensible, unclaimed⟩) read⟩

theorem exists_decodeMembers_iff {members : List (String × Json)} {type : String}
    (decides : ∀ m ∈ members, d.DecidesGrammar m.2)
    (within : ∀ m ∈ members, m.2.staysWithin d.maxDepth (path.length + 1) = true) :
    (∃ o, d.decodeMembers path members (.ofType cls type) = .ok o) ↔
      ∀ m ∈ members, m.1 ≠ "@type" → d.registry.ConformsMember cls m.1 m.2 := by
  simp only [decodeMembers_eq_ok (Object.shaped_ofType cls type)]
  rw [exists_comm]
  simp only [exists_and_left, exists_eq', and_true]
  rw [Outcome.exists_map_ok_iff]
  exact forall₂_congr fun m hm => exists_readMember_iff (decides m hm) (within m hm)

theorem decidesGrammar_object {members : List (String × Json)}
    (decides : ∀ m ∈ members, d.DecidesGrammar m.2)
    (within : (Json.object members).staysWithin d.maxDepth path.length = true) :
    (∃ o, d.decodeObject path target (.object members) = .ok o) ↔
      d.registry.Conforms target (.object members) := by
  obtain ⟨here, inside⟩ := Json.staysWithin_object.mp within
  rw [exists_decodeObject_iff here]
  simp only [exists_decodeMembers_iff decides inside]
  constructor
  · rintro ⟨type, cls, typed, admits, each⟩
    exact .object typed admits each
  · intro conforms
    cases conforms with
    | object typed admits each => exact ⟨_, _, typed, admits, each⟩

theorem decidesGrammar_leaf (notList : ∀ items, json ≠ .list items)
    (notObject : ∀ members, json ≠ .object members)
    (value : ∀ path, (∃ value, d.decodeExtension path json = .ok value) ↔
      d.registry.ConformsValue json) : d.DecidesGrammar json where
  object path target _ := by
    constructor
    · rintro ⟨o, h⟩
      cases readsObject_of_decodeObject h <;> exact absurd rfl (notObject _)
    · intro conforms
      cases conforms
      exact absurd rfl (notObject _)
  references p cls path _ _ := by
    constructor
    · rintro ⟨targets, h⟩
      cases json <;> first
        | exact absurd rfl (notList _)
        | cases h
    · rintro ⟨items, same, -⟩
      exact absurd same (notList items)
  value path _ := value path

theorem decidesGrammar_list {items : List Json} (decides : ∀ item ∈ items, d.DecidesGrammar item) :
    d.DecidesGrammar (.list items) where
  object path target _ := by
    constructor
    · rintro ⟨o, h⟩
      cases readsObject_of_decodeObject h
    · exact nofun
  references p name path holds within := by
    have inside := Json.staysWithin_list.mp within
    rw [decodeReferenceList, decodeReferences_eq]
    rw [exists_decodeItems_iff fun item hi position => exists_referenceOf_iff holds
      ((decides item hi).object _ _ (by rw [Path.length_item]; exact inside item hi))]
    constructor
    · intro each
      exact ⟨items, rfl, each⟩
    · rintro ⟨_, same, each⟩
      cases same
      exact each
  value path within := by
    have inside := Json.staysWithin_list.mp within
    have listed : d.decodeExtension path (.list items) =
        .list <$> decodeItems d.decodeExtension path 0 items := by
      rw [← decodeExtensions_eq]
      rfl
    rw [listed, Outcome.exists_map_eq_ok]
    rw [exists_decodeItems_iff fun item hi position =>
      (decides item hi).value _ (by rw [Path.length_item]; exact inside item hi)]
    constructor
    · exact .list
    · intro conforms
      cases conforms with
      | list each => exact each

/-- Reading decides the grammar on every value, by induction on what is inside it. -/
theorem decidesGrammar (d : Decoder) (json : Json) : d.DecidesGrammar json := by
  induction json using Json.induct with
  | null =>
    refine decidesGrammar_leaf nofun nofun fun path => ?_
    constructor
    · rintro ⟨value, h⟩
      cases h
    · exact nofun
  | bool b =>
    exact decidesGrammar_leaf nofun nofun fun path => ⟨fun _ => .bool b, fun _ => ⟨_, rfl⟩⟩
  | string s =>
    exact decidesGrammar_leaf nofun nofun fun path => ⟨fun _ => .string s, fun _ => ⟨_, rfl⟩⟩
  | float x =>
    exact decidesGrammar_leaf nofun nofun fun path => ⟨fun _ => .float x, fun _ => ⟨_, rfl⟩⟩
  | integer n =>
    refine decidesGrammar_leaf nofun nofun fun path => ⟨fun _ => .integer n, fun _ => ?_⟩
    cases fits : Scalar.toInt64? n with
    | some word => exact ⟨.integer word, by simp only [decodeExtension, extensionOf, fits]⟩
    | none => exact ⟨.float (.ofInt n), by simp only [decodeExtension, extensionOf, fits]⟩
  | list items ih => exact decidesGrammar_list ih
  | object members ih =>
    refine ⟨fun path target within => decidesGrammar_object ih within, ?_, fun path within => ?_⟩
    · intro p name path _ _
      constructor
      · rintro ⟨targets, h⟩
        cases h
      · exact nofun
    · have alone : d.decodeExtension path (.object members) =
          (.reference <| .object none ·) <$> d.decodeObject path none (.object members) := rfl
      rw [alone, Outcome.exists_map_eq_ok, decidesGrammar_object ih within]
      constructor
      · exact .object
      · intro conforms
        cases conforms with
        | object conforms => exact conforms

/-- An object can be read exactly if it conforms to the grammar of its place, where no object inside
it stands too deep. -/
theorem exists_decodeObject_iff_conforms (registry : Registry) {maxDepth : Nat}
    (within : json.staysWithin maxDepth path.length = true) :
    (∃ o, (Decoder.mk registry maxDepth).decodeObject path target json = .ok o) ↔
      registry.Conforms target json :=
  (decidesGrammar ⟨registry, maxDepth⟩ json).object path target within

end Decoder

namespace Sample

/-- A shelf is identified by its name and holds books; a book may say more than is declared. -/
def shelf : ClassDecl where
  iri := "ex:Shelf"
  compact := some "Shelf"
  nodeKind := none
  idAlias := some "name"
  isAbstract := false
  extensible := none
  parents := []
  properties := [
    ⟨"books", "ex:books", some "books", .object "Book", true, none, none,
      [⟨"ex:first", "first"⟩], []⟩,
    ⟨"height", "ex:height", none, .scalar .float, false, none, none, [], []⟩]

def book : ClassDecl := { shelf with
  iri := "ex:Book"
  compact := some "Book"
  idAlias := none
  extensible := some true
  properties := [⟨"pages", "ex:pages", some "pages", .scalar .integer, false, none, none, [], []⟩] }

/-- The key of the number of a ticket is the key of identifiers. -/
def ticket : ClassDecl := { shelf with
  iri := "ex:Ticket"
  compact := some "Ticket"
  idAlias := none
  properties := [⟨"number", "ex:number", some "@id", .scalar .integer, false, none, none, [], []⟩] }

def shelfRegistry : Registry := (Registry.build "" [shelf, book]).toOption.getD ⟨"", [], []⟩

def ticketRegistry : Registry := (Registry.build "" [ticket]).toOption.getD ⟨"", [], []⟩

/-- A shelf with a named book, and with one of a type that is not registered. -/
def fullShelf : Json := .object
  [("@type", .string "Shelf"), ("books", .list [.string "first",
    .object [("@type", .string "ex:Novel"), ("mood", .list [.string "dark", .integer 7]),
      ("pages", .integer 300)]]), ("ex:height", .string "1.5"), ("name", .string "_:top")]

def numberedTicket : Json := .object [("@id", .integer 5), ("@type", .string "Ticket")]

end Sample

theorem Sample.fullShelf_conforms :
    Registry.build "" [Sample.shelf, Sample.book] = .ok Sample.shelfRegistry ∧
      Sample.fullShelf.staysWithin 4 Path.root.length = true ∧
        Sample.shelfRegistry.Conforms none Sample.fullShelf := by
  have decides : (∃ o, (Decoder.mk Sample.shelfRegistry 4).decodeObject .root none
      Sample.fullShelf = .ok o) ↔ Sample.shelfRegistry.Conforms none Sample.fullShelf :=
    Decoder.exists_decodeObject_iff_conforms Sample.shelfRegistry rfl
  exact ⟨rfl, rfl, decides.mp ⟨_, rfl⟩⟩

/-- A value of the declared kind is not read where the key of its property is the one of the
identifier. -/
theorem Sample.numberedTicket_rejected : ∃ cls p,
    Registry.build "" [Sample.ticket] = .ok Sample.ticketRegistry ∧
      Sample.ticketRegistry.Admits none "Ticket" cls ∧ p ∈ cls.layout ∧ "@id" ∈ p.keys ∧
        p.isList = false ∧ p.kind = .scalar .integer ∧
          ScalarKind.Admits p.context .integer (.integer 5) ∧
            Sample.numberedTicket.staysWithin 4 0 = true ∧
              ∀ o, (Decoder.mk Sample.ticketRegistry 4).decodeObject .root none
                Sample.numberedTicket ≠ .ok o :=
  ⟨_, _, rfl, .named rfl rfl nofun, .head _, .tail _ (.head _), rfl, rfl,
    .integer (by decide) (by decide), rfl, nofun⟩

end ShapedGraph

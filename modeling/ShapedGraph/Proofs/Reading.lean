import Mathlib.Data.List.Forall2
import ShapedGraph.Object.Decode
import ShapedGraph.Proofs.Keys
import ShapedGraph.Proofs.Outcome
import ShapedGraph.Proofs.Parts
import ShapedGraph.Proofs.Scalar

/-! Reading an object one member at a time: what a slot, a value, a member and an object can be read
to, the part that each member is read to on its own, and the object that comes of putting the parts
in one after the other. -/

namespace ShapedGraph

/-- Each value of a list was read from the item in its place. -/
theorem forall₂_of_decodeItems {α : Type} {decode : Path → Json → Decoded α} {path : Path}
    {position : Nat} {items : List Json} {values : List α}
    (h : decodeItems decode path position items = .ok values) :
    List.Forall₂ (fun value item => ∃ path, decode path item = .ok value) values items := by
  induction items generalizing position values with
  | nil =>
    cases h
    exact .nil
  | cons item items ih =>
    rw [decodeItems] at h
    obtain ⟨value, read, h⟩ := Outcome.bind_eq_ok.mp h
    obtain ⟨rest, reads, h⟩ := Outcome.bind_eq_ok.mp h
    cases h
    exact .cons ⟨_, read⟩ (ih reads)

/-- One step: a list is read if its first element is and the others are. -/
theorem decodeItems_cons {α : Type} {decode : Path → Json → Decoded α} {path : Path}
    {position : Nat} {item : Json} {items : List Json} {value : α} {values : List α}
    (read : decode (path.item position) item = .ok value)
    (reads : decodeItems decode path (position + 1) items = .ok values) :
    decodeItems decode path position (item :: items) = .ok (value :: values) := by
  rw [decodeItems, read]
  show (decodeItems _ _ _ _ >>= _) = _
  rw [reads]
  rfl

/-- The elements of a list are read without a fault of a kind if each of them is. -/
theorem avoids_decodeItems {α : Type} {kind : DecodeError → Prop} {decode : Path → Json → Decoded α}
    {path : Path} {items : List Json} (each : ∀ item ∈ items, ∀ position,
      Outcome.Avoids kind (decode (path.item position) item)) (position : Nat) :
    Outcome.Avoids kind (decodeItems decode path position items) := by
  induction items generalizing position with
  | nil => exact Outcome.avoids_ok []
  | cons item items ih =>
    obtain ⟨here, later⟩ := List.forall_mem_cons.mp each
    rw [decodeItems]
    refine (here position).bind fun value _ => ?_
    exact (ih later (position + 1)).bind fun values _ => Outcome.avoids_ok _

theorem exists_mem_of_forall₂ {α β : Type} {R : α → β → Prop} {l : List α} {l' : List β}
    (h : List.Forall₂ R l l') {a : α} (ha : a ∈ l) : ∃ b ∈ l', R a b := by
  induction h with
  | nil => cases ha
  | cons here _ ih =>
    rcases List.mem_cons.mp ha with rfl | ha
    · exact ⟨_, List.mem_cons_self, here⟩
    · obtain ⟨b, hb, related⟩ := ih ha
      exact ⟨b, List.mem_cons_of_mem _ hb, related⟩

/-- What a list is read to has a value for each element, read at the position of that element. -/
theorem rel_of_decodeItems {α : Type} {decode : Path → Json → Decoded α} {path : Path}
    {position : Nat} {items : List Json} {values : List α}
    (read : decodeItems decode path position items = .ok values) (i : Nat) :
    Option.Rel (fun item value => decode (path.item (position + i)) item = .ok value)
      items[i]? values[i]? := by
  induction items generalizing position values i with
  | nil =>
    cases read
    exact .none
  | cons item items ih =>
    rw [decodeItems] at read
    obtain ⟨value, first, read⟩ := Outcome.bind_eq_ok.mp read
    obtain ⟨rest, reads, read⟩ := Outcome.bind_eq_ok.mp read
    cases read
    cases i with
    | zero => exact .some first
    | succ i =>
      have later := ih reads i
      rwa [Nat.add_assoc, Nat.add_comm 1 i] at later

theorem exists_value_of_decodeItems {α : Type} {decode : Path → Json → Decoded α} {path : Path}
    {position i : Nat} {items : List Json} {values : List α} {item : Json}
    (read : decodeItems decode path position items = .ok values) (there : items[i]? = some item) :
    ∃ value, values[i]? = some value ∧ decode (path.item (position + i)) item = .ok value := by
  have related := rel_of_decodeItems read i
  rw [there] at related
  cases found : values[i]? with
  | none =>
    rw [found] at related
    cases related
  | some value =>
    rw [found] at related
    cases related with
    | some first => exact ⟨value, rfl, first⟩

theorem exists_item_of_decodeItems_value {α : Type} {decode : Path → Json → Decoded α} {path : Path}
    {position i : Nat} {items : List Json} {values : List α} {value : α}
    (read : decodeItems decode path position items = .ok values) (there : values[i]? = some value) :
    ∃ item, items[i]? = some item ∧ decode (path.item (position + i)) item = .ok value := by
  have related := rel_of_decodeItems read i
  rw [there] at related
  cases found : items[i]? with
  | none =>
    rw [found] at related
    cases related
  | some item =>
    rw [found] at related
    cases related with
    | some first => exact ⟨item, rfl, first⟩

namespace Decoder

variable (d : Decoder)

/-- Reads what a member that holds a property puts into its slot. -/
def readSlot (p : Property) (path : Path) (json : Json) : Decoded Slot :=
  d.contentOf p path json (Slot.empty p) (fun target => d.decodeObject path target json)
    fun context target => d.decodeReferenceList context target path json

/-- Reads the values of a member that is not declared. -/
def readExtensions (path : Path) (json : Json) : Decoded (List Extension) :=
  extensionsOf path json (fun _ => d.decodeObject path none json)
    fun _ => d.decodeExtensionList path json

/-- Reads a member of the object at a path, which is of a class. -/
def readMember (path : Path) (cls : NodeClass) (key : String) (json : Json) : Decoded Part :=
  match cls.memberRole key with
  | .type => .ok .nothing
  | .id => .id <$> decodeId (path.member key) json
  | .forbiddenId => failAt (path.member key) (.idNotAllowed cls.iri)
  | .declared place =>
    match cls.layout[place]? with
    | none => failAt (path.member key) .slotMismatch
    | some p => .slot place <$> d.readSlot p (path.member key) json
  | .undeclared => .extension key <$> d.readExtensions (path.member key) json
  | .unknown => failAt path (.unknownProperty key)

variable {d} {p : Property} {path : Path} {json : Json} {slot : Slot}
  {object : Option NodeClass → Decoded Object}
  {references : Context → Option NodeClass → Decoded (List Reference)}

theorem typeName_eq_ok {members : List (String × Json)} {type : String} :
    typeName path members = .ok type ↔
      Members.get? members "@type" = some (.string type) := by
  unfold typeName
  split
  · rename_i found
    rw [found]
    exact ⟨fun h => by cases h; rfl, fun h => by cases h; rfl⟩
  · rename_i notString found
    rw [found]
    exact ⟨nofun, fun h => absurd (Option.some.inj h) (notString type)⟩
  · rename_i found
    rw [found]
    exact ⟨nofun, nofun⟩

/-- From what is not an object no object is read. -/
theorem decodeObject_of_not_object (d : Decoder) (path : Path) (target : Option NodeClass)
    (notObject : ∀ members, json ≠ .object members) : d.decodeObject path target json =
      failAt path (if d.maxDepth < path.length then .depthExceeded d.maxDepth
        else .expectedObject json.typeName) := by
  cases json with
  | object members => exact absurd rfl (notObject members)
  | _ =>
    unfold decodeObject
    exact (apply_ite (failAt path) ..).symm

/-- An object whose type name comes to one class is read by that class. -/
theorem decodeObject_of_only {target : Option NodeClass} {members : List (String × Json)}
    {type : String} {cls : NodeClass} (within : path.length ≤ d.maxDepth)
    (typed : typeName path members = .ok type)
    (only : d.choose path type target = .ok (.only cls)) :
    d.decodeObject path target (.object members) =
      d.decodeMembers path members (.ofType cls type) := by
  rw [decodeObject, if_neg (Nat.not_lt.mpr within), typed]
  show (d.choose path type target >>= _) = _
  rw [only]
  rfl

/-- An object whose class is searched for is read by the first candidate that can read it. -/
theorem decodeObject_eq_of_firstOf {target : Option NodeClass} {members : List (String × Json)}
    {type : String} {candidates : List NodeClass} (within : path.length ≤ d.maxDepth)
    (typed : typeName path members = .ok type)
    (first : d.choose path type target = .ok (.firstOf candidates)) :
    d.decodeObject path target (.object members) =
      match candidates.findSome? (fun cls =>
        (d.decodeMembers path members (.ofType cls type)).toOption) with
      | some o => .ok o
      | none => failAt path (.noMatchingExtensible type) := by
  rw [decodeObject, if_neg (Nat.not_lt.mpr within), typed]
  show (d.choose path type target >>= _) = _
  rw [first]
  rfl

theorem decodeObject_of_firstOf {target : Option NodeClass} {members : List (String × Json)}
    {type : String} {candidates : List NodeClass} {o : Object} (within : path.length ≤ d.maxDepth)
    (typed : typeName path members = .ok type)
    (first : d.choose path type target = .ok (.firstOf candidates)) :
    d.decodeObject path target (.object members) = .ok o ↔
      candidates.findSome? (fun cls =>
        (d.decodeMembers path members (.ofType cls type)).toOption) = some o := by
  rw [decodeObject_eq_of_firstOf within typed first]
  split
  · rename_i found
    rw [found]
    exact ⟨fun h => congrArg some (Except.ok.inj h), fun h => congrArg _ (Option.some.inj h)⟩
  · rename_i missing
    rw [missing]
    exact ⟨nofun, nofun⟩

theorem decodeObject_eq_error_of_firstOf {target : Option NodeClass}
    {members : List (String × Json)} {type : String} {candidates : List NodeClass} {e : DecodeError}
    (within : path.length ≤ d.maxDepth) (typed : typeName path members = .ok type)
    (first : d.choose path type target = .ok (.firstOf candidates)) :
    d.decodeObject path target (.object members) = .error e ↔
      e = ⟨path, .noMatchingExtensible type⟩ ∧
        ∀ cls ∈ candidates, (d.decodeMembers path members (.ofType cls type)).toOption = none := by
  rw [decodeObject_eq_of_firstOf within typed first, ← List.findSome?_eq_none_iff]
  split
  · rename_i found
    rw [found]
    exact ⟨nofun, nofun⟩
  · rename_i missing
    rw [and_iff_left missing]
    exact ⟨fun h => (Except.error.inj h).symm, fun same => same ▸ rfl⟩

theorem decodeId_eq_ok {id : String} :
    decodeId path json = .ok id ↔ json = .string id ∧ isIdentifier id = true := by
  rw [decodeId, Outcome.bind_eq_ok]
  constructor
  · rintro ⟨text, read, h⟩
    split at h
    · rename_i shaped
      cases h
      exact ⟨Scalar.decodeString_eq_ok.mp read, shaped⟩
    · cases h
  · rintro ⟨rfl, shaped⟩
    exact ⟨id, rfl, if_pos shaped⟩

/-- What is read into a slot does not depend on what the slot holds. -/
theorem contentOf_of_cleared (fits : slot.cleared = Slot.empty p) :
    d.contentOf p path json slot object references =
      d.contentOf p path json (Slot.empty p) object references := by
  revert fits
  unfold contentOf Slot.empty
  cases p.kind <;> cases p.isList <;> cases slot <;>
    first | (intro fits; cases fits; done) | (intro _; rfl)

/-- What the slot of a property can be read to, by what the property holds. -/
inductive ReadsSlot (d : Decoder) (p : Property) (path : Path) (json : Json) : Slot → Prop where
  | scalar {kind : ScalarKind} {value : Scalar} (holds : p.kind = .scalar kind)
    (single : p.isList = false) (read : kind.decode p.context path json = .ok value) :
    ReadsSlot d p path json (.scalar value)
  | list {kind : ScalarKind} {values : List Scalar} (holds : p.kind = .scalar kind)
    (many : p.isList = true) (read : decodeList (kind.decode p.context) path json = .ok values) :
    ReadsSlot d p path json (.list values)
  | reference {cls : String} {target : Reference} (holds : p.kind = .object cls)
    (single : p.isList = false) (read : referenceOf p.context path json (fun _ =>
      d.decodeObject path (d.registry.targetOf p) json) = .ok target) :
    ReadsSlot d p path json (.reference target)
  | references {cls : String} {targets : List Reference} (holds : p.kind = .object cls)
    (many : p.isList = true)
    (read : d.decodeReferenceList p.context (d.registry.targetOf p) path json = .ok targets) :
    ReadsSlot d p path json (.references targets)

theorem readSlot_eq_ok : d.readSlot p path json = .ok slot ↔ d.ReadsSlot p path json slot := by
  unfold readSlot contentOf Slot.empty
  constructor
  · intro h
    cases holds : p.kind with
    | scalar kind =>
      cases many : p.isList <;> simp only [holds, many] at h <;>
        obtain ⟨_, read, rfl⟩ := Outcome.map_eq_ok.mp h
      · exact .scalar holds many read
      · exact .list holds many read
    | object cls =>
      have asks : d.registry.targetOf p = d.registry.get? cls := Registry.targetOf_eq holds
      cases many : p.isList <;> simp only [holds, many, ← asks] at h <;>
        obtain ⟨_, read, rfl⟩ := Outcome.map_eq_ok.mp h
      · exact .reference holds many read
      · exact .references holds many read
  · intro h
    cases h with
    | scalar holds many read | list holds many read =>
      simp only [holds, many]
      exact Outcome.map_eq_ok.mpr ⟨_, read, rfl⟩
    | reference holds many read | references holds many read =>
      rw [Registry.targetOf_eq holds] at read
      simp only [holds, many]
      exact Outcome.map_eq_ok.mpr ⟨_, read, rfl⟩

theorem ReadsSlot.cleared (reads : d.ReadsSlot p path json slot) :
    slot.cleared = Slot.empty p := by
  unfold Slot.empty
  cases reads with
  | scalar holds many | list holds many | reference holds many | references holds many =>
    rw [holds, many]
    rfl

/-- What a value of an undeclared member can be read to, by its shape. -/
inductive ReadsValue (d : Decoder) (path : Path) : Json → Extension → Prop where
  | object {members : List (String × Json)} {o : Object}
    (read : d.decodeObject path none (.object members) = .ok o) :
    ReadsValue d path (.object members) (.reference (.object none o))
  | list {items : List Json} {values : List Extension}
    (read : d.decodeExtensions path 0 items = .ok values) :
    ReadsValue d path (.list items) (.list values)
  | string (s : String) : ReadsValue d path (.string s) (.string s)
  | boolean (b : Bool) : ReadsValue d path (.bool b) (.boolean b)
  | float (x : Binary64) : ReadsValue d path (.float x) (.float x)
  | integer {n : Int} {word : Int64} (fits : Scalar.toInt64? n = some word) :
    ReadsValue d path (.integer n) (.integer word)
  | large {n : Int} (large : Scalar.toInt64? n = none) :
    ReadsValue d path (.integer n) (.float (.ofInt n))

theorem readsValue_of_decodeExtension {value : Extension}
    (h : d.decodeExtension path json = .ok value) : d.ReadsValue path json value := by
  cases json with
  | object members =>
    obtain ⟨o, read, rfl⟩ := Outcome.map_eq_ok.mp h
    exact .object read
  | list items =>
    obtain ⟨values, read, rfl⟩ := Outcome.map_eq_ok.mp h
    exact .list read
  | integer n =>
    unfold decodeExtension extensionOf at h
    cases fits : Scalar.toInt64? n with
    | some word =>
      simp only [fits] at h
      cases h
      exact .integer fits
    | none =>
      simp only [fits] at h
      cases h
      exact .large fits
  | string s => cases h; exact .string s
  | bool b => cases h; exact .boolean b
  | float x => cases h; exact .float x
  | null => cases h

/-- What a member of an object can be read to, by its role. -/
inductive ReadsMember (d : Decoder) (path : Path) (cls : NodeClass) (key : String) (json : Json) :
    Part → Prop where
  | type (role : cls.memberRole key = .type) : ReadsMember d path cls key json .nothing
  | id {text : String} (role : cls.memberRole key = .id)
    (read : decodeId (path.member key) json = .ok text) : ReadsMember d path cls key json (.id text)
  | slot {place : Nat} {p : Property} {slot : Slot} (role : cls.memberRole key = .declared place)
    (there : cls.layout[place]? = some p) (read : d.ReadsSlot p (path.member key) json slot) :
    ReadsMember d path cls key json (.slot place slot)
  | extension {values : List Extension} (role : cls.memberRole key = .undeclared)
    (read : d.readExtensions (path.member key) json = .ok values) :
    ReadsMember d path cls key json (.extension key values)

theorem readMember_eq_ok {cls : NodeClass} {key : String} {part : Part} :
    d.readMember path cls key json = .ok part ↔ d.ReadsMember path cls key json part := by
  rw [readMember]
  constructor
  · intro h
    cases role : cls.memberRole key with
    | type =>
      simp only [role] at h
      cases h
      exact .type role
    | id =>
      simp only [role] at h
      obtain ⟨text, read, rfl⟩ := Outcome.map_eq_ok.mp h
      exact .id role read
    | declared place =>
      cases there : cls.layout[place]? with
      | none =>
        simp only [role, there] at h
        cases h
      | some p =>
        simp only [role, there] at h
        obtain ⟨slot, read, rfl⟩ := Outcome.map_eq_ok.mp h
        exact .slot role there (readSlot_eq_ok.mp read)
    | undeclared =>
      simp only [role] at h
      obtain ⟨values, read, rfl⟩ := Outcome.map_eq_ok.mp h
      exact .extension role read
    | forbiddenId | unknown =>
      simp only [role] at h
      cases h
  · intro h
    cases h with
    | type role => rw [role]
    | id role read =>
      rw [role]
      exact Outcome.map_eq_ok.mpr ⟨_, read, rfl⟩
    | slot role there read =>
      simp only [role, there]
      exact Outcome.map_eq_ok.mpr ⟨_, readSlot_eq_ok.mpr read, rfl⟩
    | extension role read =>
      rw [role]
      exact Outcome.map_eq_ok.mpr ⟨_, read, rfl⟩

theorem shaped_put {cls : NodeClass} {key : String} {part : Part} {o : Object}
    (same : o.cls = cls) (shaped : o.Shaped) (reads : d.ReadsMember path cls key json part) :
    (o.put part).Shaped := by
  subst same
  cases reads with
  | type | id | extension => exact shaped
  | slot _ there read => exact shaped.putSlot there read.cleared

/-- One step: the first member is read on its own and put into the object. -/
theorem decodeMembers_cons {o : Object} (shaped : o.Shaped) (key : String) (value : Json)
    (rest : List (String × Json)) :
    d.decodeMembers path ((key, value) :: rest) o =
      (d.readMember path o.cls key value >>= fun part =>
        d.decodeMembers path rest (o.put part)) := by
  rw [decodeMembers, readMember]
  cases role : o.cls.memberRole key with
  | type => rfl
  | id => cases decodeId (path.member key) value <;> rfl
  | forbiddenId => rfl
  | declared place =>
    simp only
    cases hp : o.cls.layout[place]? with
    | none =>
      have : o.properties[place]? = none := by
        rw [Object.properties, List.zip, List.getElem?_zipWith, hp]
      rw [this]
      rfl
    | some p =>
      obtain ⟨slot, hs⟩ := shaped.getElem?_slots hp
      rw [Object.getElem?_properties.mpr ⟨hp, hs⟩]
      simp only
      rw [contentOf_of_cleared (shaped.cleared hp hs)]
      unfold readSlot
      cases d.contentOf p (path.member key) value (Slot.empty p) _ _ <;> rfl
  | undeclared =>
    simp only
    unfold readExtensions
    cases extensionsOf (path.member key) value _ _ <;> rfl
  | unknown => rfl

/-- A run: the members can be read together if each can be read on its own. -/
theorem decodeMembers_eq_ok {members : List (String × Json)} {o o' : Object}
    (shaped : o.Shaped) : d.decodeMembers path members o = .ok o' ↔
      ∃ parts : List Part, members.map (fun m => d.readMember path o.cls m.1 m.2) =
        parts.map .ok ∧ parts.foldl Object.put o = o' := by
  induction members generalizing o with
  | nil =>
    rw [decodeMembers]
    constructor
    · intro h
      cases h
      exact ⟨[], rfl, rfl⟩
    · rintro ⟨parts, read, rfl⟩
      rw [List.map_eq_nil_iff.mp read.symm]
      rfl
  | cons m rest ih =>
    obtain ⟨key, value⟩ := m
    rw [decodeMembers_cons shaped, Outcome.bind_eq_ok]
    constructor
    · rintro ⟨part, read, h⟩
      obtain ⟨parts, reads, rfl⟩ := (ih (shaped_put rfl shaped (readMember_eq_ok.mp read))).mp h
      rw [Object.put_cls] at reads
      exact ⟨part :: parts, by rw [List.map_cons, List.map_cons, read, reads], rfl⟩
    · rintro ⟨parts, read, rfl⟩
      cases parts with
      | nil => cases read
      | cons part parts =>
        obtain ⟨first, reads⟩ := List.cons.inj read
        have shaped := shaped_put rfl shaped (readMember_eq_ok.mp first)
        refine ⟨part, first, (ih shaped).mpr ⟨parts, ?_, rfl⟩⟩
        rw [Object.put_cls, reads]

/-- Members are read without a fault of a kind if each of them is. -/
theorem avoids_decodeMembers {kind : DecodeError → Prop} {members : List (String × Json)}
    {cls : NodeClass} {o : Object}
    (each : ∀ m ∈ members, Outcome.Avoids kind (d.readMember path cls m.1 m.2))
    (shaped : o.Shaped) (same : o.cls = cls) :
    Outcome.Avoids kind (d.decodeMembers path members o) := by
  induction members generalizing o with
  | nil => exact Outcome.avoids_ok o
  | cons m members ih =>
    obtain ⟨key, value⟩ := m
    obtain ⟨here, later⟩ := List.forall_mem_cons.mp each
    rw [decodeMembers_cons shaped, same]
    refine here.bind fun part read => ?_
    have reads := readMember_eq_ok.mp read
    exact ih later (shaped_put same shaped reads) ((Object.put_cls o part).trans same)

theorem shaped_of_decodeMembers {members : List (String × Json)} {o o' : Object}
    (shaped : o.Shaped) (read : d.decodeMembers path members o = .ok o') : o'.Shaped := by
  induction members generalizing o with
  | nil =>
    cases read
    exact shaped
  | cons m members ih =>
    rw [decodeMembers_cons shaped] at read
    obtain ⟨part, first, read⟩ := Outcome.bind_eq_ok.mp read
    exact ih (shaped_put rfl shaped (readMember_eq_ok.mp first)) read

theorem decodeReferences_eq (context : Context) (target : Option NodeClass) (path : Path)
    (position : Nat) (items : List Json) :
    d.decodeReferences context target path position items =
      decodeItems (fun here item => referenceOf context here item fun _ =>
        d.decodeObject here target item) path position items := by
  induction items generalizing position with
  | nil => rfl
  | cons item items ih =>
    rw [decodeReferences, decodeItems]
    simp only [ih]

theorem decodeExtensions_eq (path : Path) (position : Nat) (items : List Json) :
    d.decodeExtensions path position items = decodeItems d.decodeExtension path position items := by
  induction items generalizing position with
  | nil => rfl
  | cons item items ih =>
    rw [decodeExtensions, decodeItems]
    simp only [ih]
    rfl

theorem typed_of_decodeMembers {members : List (String × Json)} {cls : NodeClass} {type : String}
    {o : Object} (h : d.decodeMembers path members (.ofType cls type) = .ok o) :
    o.cls = cls ∧ o.observedType = some type := by
  obtain ⟨parts, -, rfl⟩ := (decodeMembers_eq_ok (Object.shaped_ofType cls type)).mp h
  exact ⟨Object.foldl_put_cls parts _, Object.foldl_put_observedType parts _⟩

/-- A part of an object was brought by a member. -/
theorem exists_member_of_part {members : List (String × Json)} {parts : List Part}
    {cls : NodeClass} {part : Part}
    (reads : members.map (fun m => d.readMember path cls m.1 m.2) = parts.map .ok)
    (among : part ∈ parts) : ∃ m ∈ members, d.readMember path cls m.1 m.2 = .ok part := by
  have brought : .ok part ∈ parts.map (Except.ok (ε := DecodeError)) :=
    List.mem_map_of_mem among
  rw [← reads] at brought
  exact List.mem_map.mp brought

/-- What an object holds in a place was brought by a member: the slots of a new object are empty. -/
theorem exists_member_of_isSet {members : List (String × Json)} {cls : NodeClass} {type : String}
    {o : Object} (h : d.decodeMembers path members (.ofType cls type) = .ok o) {place : Nat}
    (there : o.slots[place]? = some slot) (set : slot.isSet = true) :
    ∃ m ∈ members, d.readMember path cls m.1 m.2 = .ok (.slot place slot) := by
  obtain ⟨parts, reads, rfl⟩ := (decodeMembers_eq_ok (Object.shaped_ofType cls type)).mp h
  rcases Object.slot_of_foldl_put there with blank | brought
  · replace blank : (cls.layout.map Slot.empty)[place]? = some slot := blank
    obtain ⟨p, -, rfl⟩ := List.mem_map.mp (List.mem_of_getElem? blank)
    cases (Slot.isSet_empty p).symm.trans set
  · exact exists_member_of_part reads brought

/-- An undeclared member that an object has was brought by a member. -/
theorem exists_member_of_extension {members : List (String × Json)} {cls : NodeClass}
    {type key : String} {values : List Extension} {o : Object}
    (h : d.decodeMembers path members (.ofType cls type) = .ok o)
    (there : (key, values) ∈ o.extensions) :
    ∃ m ∈ members, d.readMember path cls m.1 m.2 = .ok (.extension key values) := by
  obtain ⟨parts, reads, rfl⟩ := (decodeMembers_eq_ok (Object.shaped_ofType cls type)).mp h
  rcases Object.extension_of_foldl_put there with blank | brought
  · cases blank
  · exact exists_member_of_part reads brought

/-- How an object can be read: by the one class that its type name comes to, or by one of those that
are searched. -/
inductive ReadsObject (d : Decoder) (path : Path) (target : Option NodeClass) (o : Object) :
    Json → Prop where
  | only {members : List (String × Json)} {type : String} {cls : NodeClass}
    (typed : Members.get? members "@type" = some (.string type))
    (only : d.choose path type target = .ok (.only cls))
    (read : d.decodeMembers path members (.ofType cls type) = .ok o) :
    ReadsObject d path target o (.object members)
  | searched {members : List (String × Json)} {type : String} {candidates : List NodeClass}
    {cls : NodeClass} (typed : Members.get? members "@type" = some (.string type))
    (first : d.choose path type target = .ok (.firstOf candidates)) (among : cls ∈ candidates)
    (read : d.decodeMembers path members (.ofType cls type) = .ok o) :
    ReadsObject d path target o (.object members)

theorem readsObject_of_decodeObject {target : Option NodeClass} {o : Object}
    (h : d.decodeObject path target json = .ok o) : d.ReadsObject path target o json := by
  cases json with
  | object members =>
    rw [decodeObject] at h
    split at h
    · cases h
    obtain ⟨type, typed, h⟩ := Outcome.bind_eq_ok.mp h
    obtain ⟨choice, choose, h⟩ := Outcome.bind_eq_ok.mp h
    cases choice with
    | only cls => exact .only (typeName_eq_ok.mp typed) choose h
    | firstOf candidates =>
      simp only at h
      split at h
      · rename_i found
        cases h
        obtain ⟨cls, among, read⟩ := List.exists_of_findSome?_eq_some found
        exact .searched (typeName_eq_ok.mp typed) choose among (Outcome.toOption_eq_some.mp read)
      · cases h
  | _ =>
    unfold decodeObject at h
    split at h <;> cases h

/-- An object is read by some class, whichever way that class was chosen. -/
theorem exists_class_of_decodeObject {target : Option NodeClass} {members : List (String × Json)}
    {o : Object} (h : d.decodeObject path target (.object members) = .ok o) :
    ∃ type cls, Members.get? members "@type" = some (.string type) ∧
      d.decodeMembers path members (.ofType cls type) = .ok o := by
  cases readsObject_of_decodeObject h with
  | only typed _ read => exact ⟨_, _, typed, read⟩
  | searched typed _ _ read => exact ⟨_, _, typed, read⟩

theorem shaped_of_decodeObject {target : Option NodeClass} {o : Object}
    (h : d.decodeObject path target json = .ok o) : o.Shaped := by
  cases readsObject_of_decodeObject h with
  | only _ _ read => exact shaped_of_decodeMembers (Object.shaped_ofType _ _) read
  | searched _ _ _ read => exact shaped_of_decodeMembers (Object.shaped_ofType _ _) read

/-- The values of an undeclared member are those that were read from the member of the JSON object
with its key. -/
theorem get?_extensions_eq_some_iff {target : Option NodeClass} {members : List (String × Json)}
    {o : Object} {key : String} {values : List Extension} (sorted : Members.Sorted members)
    (read : d.decodeObject path target (.object members) = .ok o) :
    Members.get? o.extensions key = some values ↔ o.cls.memberRole key = .undeclared ∧
      ∃ value, Members.get? members key = some value ∧
        d.readExtensions (path.member key) value = .ok values := by
  obtain ⟨type, cls, -, read⟩ := exists_class_of_decodeObject read
  obtain ⟨rfl, -⟩ := typed_of_decodeMembers read
  have brought (m : String × Json) (values : List Extension) :
      d.readMember path o.cls m.1 m.2 = .ok (.extension key values) → key = m.1 ∧
        o.cls.memberRole key = .undeclared ∧
          d.readExtensions (path.member key) m.2 = .ok values := by
    intro read
    cases readMember_eq_ok.mp read with
    | extension role read => exact ⟨rfl, role, read⟩
  constructor
  · intro found
    obtain ⟨⟨name, value⟩, there, read⟩ :=
      exists_member_of_extension read (Members.mem_of_get? found)
    obtain ⟨rfl, role, reads⟩ := brought _ _ read
    exact ⟨role, value, Members.get?_of_mem sorted there, reads⟩
  · rintro ⟨role, value, found, reads⟩
    obtain ⟨parts, each, built⟩ := (decodeMembers_eq_ok (Object.shaped_ofType _ type)).mp read
    rw [← built]
    refine Object.get?_extensions_foldl_put (fun other also => ?_) (.inr ?_)
    · -- A JSON object has only one member with the key.
      obtain ⟨⟨name, value'⟩, there, read⟩ := exists_member_of_part each also
      obtain ⟨rfl, -, reads'⟩ := brought _ _ read
      cases found.symm.trans (Members.get?_of_mem sorted there)
      exact Except.ok.inj (reads'.symm.trans reads)
    · have there := List.mem_map_of_mem (f := fun m => d.readMember path o.cls m.1 m.2)
        (Members.mem_of_get? found)
      rw [readMember_eq_ok.mpr (.extension role reads)] at there
      obtain ⟨part, among, same⟩ := List.mem_map.mp (each ▸ there)
      cases same
      exact among

theorem sorted_extensions_of_decodeObject {target : Option NodeClass} {o : Object}
    (read : d.decodeObject path target json = .ok o) : Members.Sorted o.extensions := by
  cases json with
  | object members =>
    obtain ⟨type, cls, -, read⟩ := exists_class_of_decodeObject read
    obtain ⟨parts, -, rfl⟩ := (decodeMembers_eq_ok (Object.shaped_ofType cls type)).mp read
    exact Object.sorted_foldl_put Members.sorted_nil
  | _ => cases readsObject_of_decodeObject read

end Decoder

end ShapedGraph

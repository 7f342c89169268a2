import ShapedGraph.Proofs.Choice
import ShapedGraph.Proofs.Json
import ShapedGraph.Proofs.Keys
import ShapedGraph.Proofs.Members
import ShapedGraph.Proofs.Nesting
import ShapedGraph.Proofs.Reading
import ShapedGraph.Proofs.Rounding
import ShapedGraph.Proofs.Scalar

/-! What holds of every object that was read, and of every object inside it: its class fits its
place, each slot holds what its property asks for, and only members that no property claims are kept
as undeclared ones. -/

namespace ShapedGraph

/-- Every type name in a value is registered or stands where an extensible class is asked for, so
that no class has to be searched for. -/
inductive Json.Settled (registry : Registry) : Option NodeClass → Json → Prop where
  | object {target : Option NodeClass} {members : List (String × Json)} {type : String}
    {cls : NodeClass} (typed : Members.get? members "@type" = some (.string type))
    (settles : registry.Settles target type cls)
    (each : ∀ m ∈ members, Settled registry (registry.memberTarget cls m.1) m.2) :
    Settled registry target (.object members)
  | untyped {target : Option NodeClass} {members : List (String × Json)}
    (untyped : ∀ type, Members.get? members "@type" ≠ some (.string type)) :
    Settled registry target (.object members)
  | list {target : Option NodeClass} {items : List Json}
    (each : ∀ item ∈ items, Settled registry target item) : Settled registry target (.list items)
  | null {target : Option NodeClass} : Settled registry target .null
  | bool {target : Option NodeClass} (b : Bool) : Settled registry target (.bool b)
  | integer {target : Option NodeClass} (n : Int) : Settled registry target (.integer n)
  | float {target : Option NodeClass} (x : Binary64) : Settled registry target (.float x)
  | string {target : Option NodeClass} (s : String) : Settled registry target (.string s)

/-- A reference that was read: an IRI that identifies a node, or an object that is reached from
here only. -/
inductive Reference.Sound (context : Context) : Reference → Prop where
  | iri (written : String) (shaped : isIdentifier (context.expand written) = true) :
    Sound context (.iri (context.expand written))
  | object (o : Object) : Sound context (.object none o)

/-- Part that a property may have been read to hold. -/
inductive Slot.Sound (p : Property) : Slot → Prop where
  | unset : Sound p (.empty p)
  | scalar {kind : ScalarKind} {value : Scalar} (holds : p.kind = .scalar kind)
    (single : p.isList = false) (reads : kind.Reads p.context value) :
    Sound p (.scalar (some value))
  | list {kind : ScalarKind} {values : List Scalar} (holds : p.kind = .scalar kind)
    (many : p.isList = true) (reads : ∀ value ∈ values, kind.Reads p.context value) :
    Sound p (.list values)
  | reference {cls : String} {target : Reference} (holds : p.kind = .object cls)
    (single : p.isList = false) (sound : target.Sound p.context) : Sound p (.reference target)
  | references {cls : String} {targets : List Reference} (holds : p.kind = .object cls)
    (many : p.isList = true) (sound : ∀ target ∈ targets, target.Sound p.context) :
    Sound p (.references targets)

theorem Slot.Sound.handle_of_object {p : Property} {slot : Slot} {handle : Option Nat} {o : Object}
    (sound : slot.Sound p) (h : .object handle o ∈ slot.targets) : handle = none := by
  cases sound with
  | unset =>
    revert h
    unfold Slot.empty
    split <;> simp [targets]
  | scalar | list => cases h
  | reference _ _ sound =>
    rw [← List.mem_singleton.mp h] at sound
    cases sound
    rfl
  | references _ _ sound =>
    cases sound _ h
    rfl

/-- A value of an undeclared member that was read. A number is finite, unless there may have been
numbers that are out of range. -/
inductive Extension.Sound (unbounded : Prop) : Extension → Prop where
  | object (o : Object) : Sound unbounded (.reference (.object none o))
  | string (s : String) : Sound unbounded (.string s)
  | integer (n : Int64) : Sound unbounded (.integer n)
  | float {x : Binary64} (finite : unbounded ∨ ∃ negative rank, x = .finite negative rank) :
    Sound unbounded (.float x)
  | boolean (b : Bool) : Sound unbounded (.boolean b)
  | list {values : List Extension} (each : ∀ value ∈ values, Sound unbounded value) :
    Sound unbounded (.list values)

/-- Part that a member of an object of a class may have been read to hold. -/
inductive Part.Sound (unbounded : Prop) (cls : NodeClass) : Part → Prop where
  | nothing : Sound unbounded cls .nothing
  | id {text : String} (free : cls.idKey ≠ "@type") (shaped : isIdentifier text = true) :
    Sound unbounded cls (.id text)
  | slot {place : Nat} {p : Property} {slot : Slot} (there : cls.layout[place]? = some p)
    (sound : slot.Sound p) : Sound unbounded cls (.slot place slot)
  | extension {key : String} {values : List Extension} (role : cls.memberRole key = .undeclared)
    (each : ∀ value ∈ values, value.Sound unbounded) : Sound unbounded cls (.extension key values)

/-- A part of an object holds another, at a place that asks for a class or for none. -/
inductive Part.Holds (registry : Registry) (cls : NodeClass) :
    Part → Option NodeClass → Object → Prop where
  | inSlot {place : Nat} {p : Property} {slot : Slot} {x : Object}
    (there : cls.layout[place]? = some p) (inside : x ∈ slot.objects) :
    Holds registry cls (.slot place slot) (registry.targetOf p) x
  | inExtension {key : String} {values : List Extension} {value : Extension} {x : Object}
    (among : value ∈ values) (inside : x ∈ value.objects) :
    Holds registry cls (.extension key values) none x

namespace Object

/-- The content of an object as its class asks for it. -/
structure Filled (unbounded : Prop) (o : Object) : Prop where
  shaped : o.Shaped
  id : ∀ text, o.id = some text → o.cls.idKey ≠ "@type" ∧ isIdentifier text = true
  slots : ∀ (place : Nat) (p : Property) (slot : Slot), o.cls.layout[place]? = some p →
    o.slots[place]? = some slot → slot.Sound p
  sorted : Members.Sorted o.extensions
  extensions : ∀ key values, (key, values) ∈ o.extensions →
    o.cls.memberRole key = .undeclared ∧ ∀ value ∈ values, value.Sound unbounded

/-- An object that was read at a place that asks for a class or for none. -/
structure Sound (registry : Registry) (searched unbounded : Prop) (target : Option NodeClass)
    (o : Object) : Prop where
  registered : o.cls ∈ registry.classes
  typed : ∃ type, o.observedType = some type ∧
    registry.Chosen searched target type o.cls
  filled : o.Filled unbounded

variable {unbounded : Prop} {registry : Registry} {o : Object} {part : Part}

theorem filled_ofType (cls : NodeClass) (type : String) : (ofType cls type).Filled unbounded where
  shaped := shaped_ofType cls type
  id := nofun
  slots place p slot hp hs := by
    replace hs : (cls.layout.map Slot.empty)[place]? = some slot := hs
    replace hp : cls.layout[place]? = some p := hp
    rw [List.getElem?_map, hp] at hs
    cases hs
    exact .unset
  sorted := Members.sorted_nil
  extensions := nofun

/-- One step: a sound part keeps an object filled. -/
theorem Filled.put (filled : o.Filled unbounded) (sound : part.Sound unbounded o.cls)
    (shaped : (o.put part).Shaped) : (o.put part).Filled unbounded := by
  cases sound with
  | nothing => exact filled
  | id free shape =>
    exact { filled with id := fun text h => by cases h; exact ⟨free, shape⟩ }
  | @slot place p slot there sound =>
    refine { filled with shaped := shaped, slots := fun other q slot' hq hs => ?_ }
    replace hs : (o.slots.set place slot)[other]? = some slot' := hs
    rw [List.getElem?_set] at hs
    split at hs
    · rename_i same
      subst same
      split at hs
      · cases hs
        cases hq.symm.trans there
        exact sound
      · cases hs
    · exact filled.slots other q slot' hq hs
  | @extension key values role each =>
    refine { filled with
      sorted := Members.sorted_insert filled.sorted key values
      extensions := fun key' values' h => ?_ }
    rcases Members.mem_insert h with same | h
    · cases same
      exact ⟨role, each⟩
    · exact filled.extensions key' values' h

/-- What an object holds with a part put in, it held before or the part holds. -/
theorem holds_put {inner : Option NodeClass} {x : Object}
    (holds : (o.put part).Holds registry inner x) :
    o.Holds registry inner x ∨ part.Holds registry o.cls inner x := by
  cases holds with
  | inSlot there inside =>
    cases part with
    | nothing => exact .inl (.inSlot there inside)
    | id text => exact .inl (.inSlot there inside)
    | extension key values => exact .inl (.inSlot there inside)
    | slot place slot =>
      obtain ⟨i, hi⟩ := List.mem_iff_getElem?.mp there
      obtain ⟨hp, hs⟩ := getElem?_properties.mp hi
      replace hs : (o.slots.set place slot)[i]? = _ := hs
      rw [List.getElem?_set] at hs
      split at hs
      · rename_i same
        subst same
        split at hs
        · cases hs
          exact .inr (.inSlot hp inside)
        · cases hs
      · exact .inl (.inSlot (List.mem_of_getElem? (getElem?_properties.mpr ⟨hp, hs⟩)) inside)
  | inExtension there among inside =>
    cases part with
    | nothing => exact .inl (.inExtension there among inside)
    | id text => exact .inl (.inExtension there among inside)
    | slot place slot => exact .inl (.inExtension there among inside)
    | extension key values =>
      rcases Members.mem_insert there with same | there
      · cases same
        exact .inr (.inExtension among inside)
      · exact .inl (.inExtension there among inside)

/-- The object and every object inside it are as they are read. -/
def SoundThroughout (registry : Registry) (searched unbounded : Prop) :
    Option NodeClass → Object → Prop :=
  Everywhere registry (Sound registry searched unbounded)

variable {searched : Prop} {target : Option NodeClass}

/-- A run: sound parts keep an object filled. -/
theorem filled_foldl {parts : List Part} (filled : o.Filled unbounded)
    (sound : ∀ part ∈ parts, part.Sound unbounded o.cls ∧
      ∀ o' : Object, o'.cls = o.cls → o'.Shaped → (o'.put part).Shaped) :
    (parts.foldl put o).Filled unbounded := by
  induction parts generalizing o with
  | nil => exact filled
  | cons part parts ih =>
    obtain ⟨first, shaped⟩ := sound part List.mem_cons_self
    refine ih (filled.put first (shaped o rfl filled.shaped)) fun other h => ?_
    rw [put_cls]
    exact sound other (List.mem_cons_of_mem _ h)

theorem holds_foldl {parts : List Part} {inner : Option NodeClass} {x : Object}
    (holds : (parts.foldl put o).Holds registry inner x) :
    o.Holds registry inner x ∨ ∃ part ∈ parts, part.Holds registry o.cls inner x := by
  induction parts generalizing o with
  | nil => exact .inl holds
  | cons part parts ih =>
    rcases ih holds with holds | ⟨other, h, holds⟩
    · exact (holds_put holds).imp_right fun holds => ⟨part, List.mem_cons_self, holds⟩
    · rw [put_cls] at holds
      exact .inr ⟨other, List.mem_cons_of_mem _ h, holds⟩

theorem not_holds_ofType {cls : NodeClass} {type : String} {inner : Option NodeClass} {x : Object} :
    ¬(ofType cls type).Holds registry inner x := by
  intro holds
  cases holds with
  | inSlot there inside =>
    obtain ⟨i, hi⟩ := List.mem_iff_getElem?.mp there
    obtain ⟨hp, hs⟩ := getElem?_properties.mp hi
    replace hs : (cls.layout.map Slot.empty)[i]? = _ := hs
    replace hp : cls.layout[i]? = _ := hp
    rw [List.getElem?_map, hp] at hs
    cases hs
    revert inside
    unfold Slot.empty
    split <;> exact nofun
  | inExtension there => cases there

end Object

namespace Decoder

variable {d : Decoder} {searched unbounded : Prop}

/-- What reading a value gives is sound, whatever is read from it. -/
structure ReadsSoundly (d : Decoder) (searched unbounded : Prop) (json : Json) : Prop where
  object : ∀ path target o, (∀ t, target = some t → t ∈ d.registry.classes) →
    searched ∨ json.Settled d.registry target → d.decodeObject path target json = .ok o →
      o.SoundThroughout d.registry searched unbounded target
  references : ∀ context path target targets, (∀ t, target = some t → t ∈ d.registry.classes) →
    searched ∨ json.Settled d.registry target →
      d.decodeReferenceList context target path json = .ok targets →
        ∀ reference ∈ targets, reference.Sound context ∧ ∀ x ∈ reference.objects,
          x.SoundThroughout d.registry searched unbounded target
  value : ∀ path value, searched ∨ json.Settled d.registry none →
    d.decodeExtension path json = .ok value → value.Sound unbounded ∧ ∀ x ∈ value.objects,
      x.SoundThroughout d.registry searched unbounded none
  values : ∀ path values, searched ∨ json.Settled d.registry none →
    d.decodeExtensionList path json = .ok values →
      ∀ value ∈ values, value.Sound unbounded ∧ ∀ x ∈ value.objects,
        x.SoundThroughout d.registry searched unbounded none

variable {context : Context} {path : Path} {target : Option NodeClass} {json : Json}

theorem sound_of_referenceOf {object : Unit → Decoded Object} {reference : Reference}
    {Q : Object → Prop} (h : referenceOf context path json object = .ok reference)
    (inside : ∀ o, object () = .ok o → Q o) :
    reference.Sound context ∧ ∀ x ∈ reference.objects, Q x := by
  unfold referenceOf at h
  split at h
  · obtain ⟨iri, read, rfl⟩ := Outcome.map_eq_ok.mp h
    obtain ⟨text, -, rfl, shaped⟩ := Scalar.decodeIri_eq_ok.mp read
    exact ⟨.iri text shaped, nofun⟩
  · obtain ⟨o, read, rfl⟩ := Outcome.map_eq_ok.mp h
    exact ⟨.object o, fun x hx => List.mem_singleton.mp hx ▸ inside o read⟩

theorem sound_of_decodeReferences {items : List Json} {position : Nat} {targets : List Reference}
    (each : ∀ item ∈ items, d.ReadsSoundly searched unbounded item)
    (registered : ∀ t, target = some t → t ∈ d.registry.classes)
    (settled : ∀ item ∈ items, searched ∨ item.Settled d.registry target)
    (h : d.decodeReferences context target path position items = .ok targets) :
    ∀ reference ∈ targets, reference.Sound context ∧ ∀ x ∈ reference.objects,
      x.SoundThroughout d.registry searched unbounded target := by
  induction items generalizing position targets with
  | nil =>
    cases h
    exact nofun
  | cons item items ih =>
    rw [decodeReferences] at h
    obtain ⟨reference, read, h⟩ := Outcome.bind_eq_ok.mp h
    obtain ⟨rest, reads, h⟩ := Outcome.bind_eq_ok.mp h
    cases h
    refine List.forall_mem_cons.mpr ⟨sound_of_referenceOf read fun o decoded =>
      (each item List.mem_cons_self).object _ target o registered
        (settled item List.mem_cons_self) decoded, ?_⟩
    exact ih (fun other h => each other (List.mem_cons_of_mem _ h))
      (fun other h => settled other (List.mem_cons_of_mem _ h)) reads

theorem sound_of_decodeExtensions {items : List Json} {position : Nat} {values : List Extension}
    (each : ∀ item ∈ items, d.ReadsSoundly searched unbounded item)
    (settled : ∀ item ∈ items, searched ∨ item.Settled d.registry none)
    (h : d.decodeExtensions path position items = .ok values) :
    ∀ value ∈ values, value.Sound unbounded ∧ ∀ x ∈ value.objects,
      x.SoundThroughout d.registry searched unbounded none := by
  induction items generalizing position values with
  | nil =>
    cases h
    exact nofun
  | cons item items ih =>
    rw [decodeExtensions] at h
    obtain ⟨value, read, h⟩ := Outcome.bind_eq_ok.mp h
    obtain ⟨rest, reads, h⟩ := Outcome.bind_eq_ok.mp h
    cases h
    refine List.forall_mem_cons.mpr
      ⟨(each item List.mem_cons_self).value _ value (settled item List.mem_cons_self) read, ?_⟩
    exact ih (fun other h => each other (List.mem_cons_of_mem _ h))
      (fun other h => settled other (List.mem_cons_of_mem _ h)) reads

theorem reads_of_decodeItems {α : Type} {decode : Path → Json → Decoded α} {position : Nat}
    {items : List Json} {values : List α}
    (h : decodeItems decode path position items = .ok values) :
    ∀ value ∈ values, ∃ path json, decode path json = .ok value := by
  intro value hv
  obtain ⟨item, -, path, read⟩ := exists_mem_of_forall₂ (forall₂_of_decodeItems h) hv
  exact ⟨path, item, read⟩

theorem sound_of_readSlot {p : Property} {slot : Slot}
    (reads : d.ReadsSoundly searched unbounded json)
    (settled : searched ∨ json.Settled d.registry (d.registry.targetOf p))
    (h : d.ReadsSlot p path json slot) : slot.Sound p ∧ ∀ x ∈ slot.objects,
      x.SoundThroughout d.registry searched unbounded (d.registry.targetOf p) := by
  have registered : ∀ t, d.registry.targetOf p = some t → t ∈ d.registry.classes :=
    fun _ => Registry.mem_of_targetOf
  cases h with
  | scalar holds single read => exact ⟨.scalar holds single ⟨path, json, read⟩, nofun⟩
  | list holds many read =>
    refine ⟨.list holds many ?_, nofun⟩
    unfold decodeList at read
    split at read
    · exact reads_of_decodeItems read
    · cases read
  | reference holds single read =>
    obtain ⟨sound, inside⟩ := sound_of_referenceOf read fun o decoded =>
      reads.object path _ o registered settled decoded
    exact ⟨.reference holds single sound, inside⟩
  | references holds many read =>
    have each := reads.references _ path _ _ registered settled read
    refine ⟨.references holds many fun reference hr => (each reference hr).1, fun x hx => ?_⟩
    obtain ⟨reference, hr, hx⟩ := List.mem_flatMap.mp hx
    exact (each reference hr).2 x hx

theorem sound_of_readExtensions {values : List Extension}
    (reads : d.ReadsSoundly searched unbounded json)
    (settled : searched ∨ json.Settled d.registry none)
    (h : d.readExtensions path json = .ok values) : ∀ value ∈ values, value.Sound unbounded ∧
      ∀ x ∈ value.objects, x.SoundThroughout d.registry searched unbounded none := by
  unfold readExtensions extensionsOf at h
  split at h
  · exact reads.values path values settled h
  · obtain ⟨value, read, rfl⟩ := Outcome.map_eq_ok.mp h
    intro other hv
    rw [List.mem_singleton.mp hv]
    exact reads.value path value settled read

/-- Reading a member gives a sound part, and the objects it holds are sound throughout. -/
theorem sound_of_readMember {cls : NodeClass} {key : String} {part : Part}
    (reads : d.ReadsSoundly searched unbounded json)
    (settled : searched ∨ json.Settled d.registry (d.registry.memberTarget cls key))
    (h : d.ReadsMember path cls key json part) : part.Sound unbounded cls ∧
      ∀ inner x, part.Holds d.registry cls inner x →
        x.SoundThroughout d.registry searched unbounded inner := by
  cases h with
  | type => exact ⟨.nothing, fun _ _ holds => by cases holds⟩
  | id role read =>
    obtain ⟨same, notType⟩ := NodeClass.Means.of_memberRole role
    exact ⟨.id (same ▸ notType) (decodeId_eq_ok.mp read).2, fun _ _ holds => by cases holds⟩
  | slot role there read =>
    rw [Registry.memberTarget_of_declared role there] at settled
    obtain ⟨sound, inside⟩ := sound_of_readSlot reads settled read
    refine ⟨.slot there sound, fun inner x holds => ?_⟩
    cases holds with
    | inSlot there' hx =>
      cases there'.symm.trans there
      exact inside x hx
  | extension role read =>
    rw [Registry.memberTarget_of_undeclared role] at settled
    have each := sound_of_readExtensions reads settled read
    refine ⟨.extension role fun value hv => (each value hv).1, fun inner x holds => ?_⟩
    cases holds with
    | inExtension among hx => exact (each _ among).2 x hx

/-- The members of an object are read into an object that is sound throughout. -/
theorem sound_of_decodeMembers {members : List (String × Json)} {cls : NodeClass} {type : String}
    {o : Object} (each : ∀ m ∈ members, d.ReadsSoundly searched unbounded m.2)
    (settled : searched ∨
      ∀ m ∈ members, m.2.Settled d.registry (d.registry.memberTarget cls m.1))
    (registered : cls ∈ d.registry.classes)
    (chosen : d.registry.Chosen searched target type cls)
    (h : d.decodeMembers path members (.ofType cls type) = .ok o) :
    o.SoundThroughout d.registry searched unbounded target := by
  obtain ⟨parts, reads, rfl⟩ := (decodeMembers_eq_ok (Object.shaped_ofType cls type)).mp h
  -- Every part comes from a member.
  have origin : ∀ part ∈ parts, ∃ m ∈ members, d.ReadsMember path cls m.1 m.2 part := by
    intro part hc
    have : Except.ok part ∈ parts.map (Except.ok : Part → Decoded Part) :=
      List.mem_map_of_mem hc
    rw [← reads] at this
    obtain ⟨m, hm, read⟩ := List.mem_map.mp this
    exact ⟨m, hm, readMember_eq_ok.mp read⟩
  have sound : ∀ part ∈ parts, part.Sound unbounded cls ∧
      ∀ inner x, part.Holds d.registry cls inner x →
        x.SoundThroughout d.registry searched unbounded inner := by
    intro part hc
    obtain ⟨m, hm, read⟩ := origin part hc
    exact sound_of_readMember (each m hm) (settled.imp_right fun h => h m hm) read
  have sameClass : (parts.foldl Object.put (.ofType cls type)).cls = cls :=
    Object.foldl_put_cls parts _
  refine .intro ⟨?_, ⟨type, Object.foldl_put_observedType parts _, ?_⟩, ?_⟩ fun inner x holds => ?_
  · rw [sameClass]
    exact registered
  · rw [sameClass]
    exact chosen
  · refine Object.filled_foldl (Object.filled_ofType cls type) fun part hc =>
      ⟨(sound part hc).1, fun o' same shaped => ?_⟩
    obtain ⟨m, -, read⟩ := origin part hc
    exact shaped_put same shaped read
  · rcases Object.holds_foldl holds with holds | ⟨part, hc, holds⟩
    · exact absurd holds Object.not_holds_ofType
    · exact (sound part hc).2 inner x holds

theorem readsSoundly_object {members : List (String × Json)}
    (each : ∀ m ∈ members, d.ReadsSoundly searched unbounded m.2)
    {o : Object} (registered : ∀ t, target = some t → t ∈ d.registry.classes)
    (settled : searched ∨ (Json.object members).Settled d.registry target)
    (h : d.decodeObject path target (.object members) = .ok o) :
    o.SoundThroughout d.registry searched unbounded target := by
  cases readsObject_of_decodeObject h with
  | @only _ type cls typed only read =>
    have chosen : d.registry.Chosen searched target type cls := chosen_of_only only
    refine sound_of_decodeMembers each (settled.imp_right fun settled => ?_)
      (chosen.mem_classes registered) chosen read
    cases settled with
    | untyped untyped => exact absurd typed (untyped type)
    | object typed' settles each =>
      cases typed.symm.trans typed'
      rw [chosen.eq_of_settles settles]
      exact each
  | @searched _ type candidates cls typed first among read =>
    obtain ⟨unknown, shaped, closed, rfl⟩ := found_of_firstOf first among
    rcases settled with search | settled
    · have chosen : d.registry.Chosen searched target type cls :=
        .found search unknown shaped closed among
      exact sound_of_decodeMembers each (.inl search) (chosen.mem_classes registered) chosen read
    · -- Where the class is settled, none is searched for.
      cases settled with
      | untyped untyped => exact absurd typed (untyped type)
      | object typed' settles _ =>
        cases typed.symm.trans typed'
        rcases settles with known | ⟨-, wanted, extensible⟩
        · cases unknown.symm.trans known
        · cases extensible.symm.trans (closed _ wanted)

/-- From a value that is neither a list nor an object, no object is read. -/
theorem readsSoundly_leaf (notList : ∀ items, json ≠ .list items)
    (notObject : ∀ members, json ≠ .object members)
    (value : ∀ path value, d.ReadsValue path json value →
      value.Sound unbounded ∧ value.objects = []) : d.ReadsSoundly searched unbounded json where
  object path target o _ _ h := by
    cases readsObject_of_decodeObject h <;> exact absurd rfl (notObject _)
  references context path target targets _ _ h := by
    cases json <;> first
      | exact absurd rfl (notList _)
      | cases h
  value path v _ h := by
    obtain ⟨sound, none⟩ := value path v (readsValue_of_decodeExtension h)
    rw [none]
    exact ⟨sound, nofun⟩
  values path values _ h := by
    cases json <;> first
      | exact absurd rfl (notList _)
      | cases h

/-- Whatever is read from a value is sound. -/
theorem readsSoundly (d : Decoder) (searched unbounded : Prop) (json : Json)
    (bounded : unbounded ∨ json.Representable) : d.ReadsSoundly searched unbounded json := by
  induction json using Json.induct with
  | null => exact readsSoundly_leaf nofun nofun nofun
  | bool b | string s =>
    refine readsSoundly_leaf nofun nofun fun _ _ reads => ?_
    cases reads
    constructor
    · constructor
    · rfl
  | float x =>
    refine readsSoundly_leaf nofun nofun fun _ _ reads => ?_
    cases reads
    refine ⟨.float (bounded.imp_right fun representable => ?_), rfl⟩
    cases representable
    exact ⟨_, _, rfl⟩
  | integer n =>
    refine readsSoundly_leaf nofun nofun fun _ _ reads => ?_
    cases reads with
    | integer => exact ⟨.integer _, rfl⟩
    | large =>
      refine ⟨.float (bounded.imp_right fun representable => ?_), rfl⟩
      cases representable with
      | integer lower upper =>
        obtain ⟨rank, finite⟩ := Binary64.ofInt_finite lower upper
        exact ⟨_, rank, finite⟩
  | list items ih =>
    have each : ∀ item ∈ items, d.ReadsSoundly searched unbounded item := fun item hi =>
      ih item hi (bounded.imp_right fun h => by cases h with | list each => exact each item hi)
    have settledItems : ∀ {target}, searched ∨ (Json.list items).Settled d.registry target →
        ∀ item ∈ items, searched ∨ item.Settled d.registry target := fun settled item hi =>
      settled.imp_right fun h => by cases h with | list each => exact each item hi
    refine ⟨fun path target o _ _ h => ?_, fun context path target targets registered settled h =>
      sound_of_decodeReferences each registered (settledItems settled) h,
      fun path value settled h => ?_,
      fun path values settled h => sound_of_decodeExtensions each (settledItems settled) h⟩
    · cases readsObject_of_decodeObject h
    · obtain ⟨values, read, rfl⟩ := Outcome.map_eq_ok.mp h
      have all := sound_of_decodeExtensions each (settledItems settled) read
      refine ⟨.list fun value hv => (all value hv).1, fun x hx => ?_⟩
      obtain ⟨value, hv, hx⟩ := mem_extensionObjects.mp hx
      exact (all value hv).2 x hx
  | object members ih =>
    have each : ∀ m ∈ members, d.ReadsSoundly searched unbounded m.2 := fun m hm =>
      ih m hm (bounded.imp_right fun h => by cases h with | object each => exact each m hm)
    refine ⟨fun path target o registered settled h => readsSoundly_object each registered settled h,
      nofun, fun path value settled h => ?_, nofun⟩
    obtain ⟨o, read, rfl⟩ := Outcome.map_eq_ok.mp h
    have unasked : ∀ t, none = some t → t ∈ d.registry.classes := nofun
    have sound := readsSoundly_object each unasked settled read
    exact ⟨.object o, fun x hx => List.mem_singleton.mp hx ▸ sound⟩

end Decoder

end ShapedGraph

import ShapedGraph.Proofs.Closed
import ShapedGraph.Proofs.Location

/-! Reading that the limit does not stop. Where no key means two things in a class, the members that
an object is written with mean what they were written for. So only objects are looked for where
objects stand, and reading what was written stops at the limit only if an object in it stands beyond
the limit. -/

namespace ShapedGraph

/-- Reading does not stop because the limit is exceeded. -/
def Unexceeded {α : Type} (x : Decoded α) : Prop :=
  ∀ path limit, x ≠ .error ⟨path, .depthExceeded limit⟩

/-- The fault that a limit is exceeded is a kind of fault that reading avoids. -/
theorem unexceeded_iff {α : Type} {x : Decoded α} :
    Unexceeded x ↔ Outcome.Avoids (fun e => ∃ limit, e.fault = .depthExceeded limit) x := by
  constructor
  · rintro unexceeded ⟨path, fault⟩ rfl ⟨limit, rfl⟩
    exact unexceeded path limit rfl
  · exact fun avoids path limit fails => avoids _ fails ⟨limit, rfl⟩

namespace Unexceeded

variable {α β : Type} {x : Decoded α}

theorem ok (a : α) : Unexceeded (.ok a : Decoded α) := nofun

theorem failAt (path : Path) {fault : DecodeFault} (other : ∀ limit, fault ≠ .depthExceeded limit) :
    Unexceeded (ShapedGraph.failAt path fault : Decoded α) := by
  intro path' limit same
  cases same
  exact other limit rfl

theorem bind {f : α → Decoded β} (first : Unexceeded x)
    (next : ∀ a, x = .ok a → Unexceeded (f a)) : Unexceeded (x >>= f) :=
  unexceeded_iff.mpr ((unexceeded_iff.mp first).bind fun a read => unexceeded_iff.mp (next a read))

theorem map {f : α → β} (unexceeded : Unexceeded x) : Unexceeded (f <$> x) :=
  unexceeded_iff.mpr (unexceeded_iff.mp unexceeded).map

/-- What fails alike under every limit does not fail at the limit. -/
theorem of_moved (same : ∀ limit, x = x.mapError (·.moved .root limit)) : Unexceeded x := by
  rintro path limit rfl
  cases same (limit + 1)

theorem scalar {kind : ScalarKind} {context : Context} (path : Path) (json : Json) :
    Unexceeded (kind.decode context path json) :=
  of_moved fun limit => ScalarKind.decode_under .root limit path json kind context

theorem items {decode : Path → Json → Decoded α} {path : Path} {items : List Json}
    (each : ∀ item ∈ items, ∀ position, Unexceeded (decode (path.item position) item))
    (position : Nat) : Unexceeded (decodeItems decode path position items) :=
  unexceeded_iff.mpr (avoids_decodeItems
    (fun item among position => unexceeded_iff.mp (each item among position)) position)

end Unexceeded

namespace Decoder

variable {d : Decoder} {path : Path} {target : Option NodeClass} {context : Context}
  {members : List (String × Json)} {o : Object} {searched unbounded : Prop}

theorem unexceeded_members {cls : NodeClass}
    (each : ∀ m ∈ members, Unexceeded (d.readMember path cls m.1 m.2)) (shaped : o.Shaped)
    (same : o.cls = cls) : Unexceeded (d.decodeMembers path members o) :=
  unexceeded_iff.mpr (avoids_decodeMembers (fun m among => unexceeded_iff.mp (each m among)) shaped
    same)

/-- The limit is not exceeded in members that an object may be written with, if every object in them
stands within it. -/
def RereadsWithin (d : Decoder) (target : Option NodeClass) (o : Object) : Prop :=
  ∀ path members, (∀ m ∈ members, o.Writes m) →
    (Json.object members).staysWithin d.maxDepth path.length = true →
      Unexceeded (d.decodeObject path target (.object members))

theorem unexceeded_reference {reference : Reference} (sound : reference.Sound context)
    (inside : ∀ x ∈ reference.objects, d.RereadsWithin target x) (path : Path) (seen : Seen)
    (within : (reference.encode context seen).1.staysWithin d.maxDepth path.length = true) :
    Unexceeded (referenceOf context path (reference.encode context seen).1
      fun _ => d.decodeObject path target (reference.encode context seen).1) := by
  cases sound with
  | iri written shaped =>
    exact (Unexceeded.of_moved fun limit => Scalar.decodeIri_under .root limit path _ context).map
  | object o =>
    rw [encode_unshared] at within ⊢
    refine Unexceeded.map ?_
    exact inside o List.mem_cons_self path _ (fun m => Object.writes_of_mem_encode) within

theorem unexceeded_slot {p : Property} {slot : Slot} (sound : slot.Sound p)
    (set : slot.isSet = true)
    (inside : ∀ x ∈ slot.objects, d.RereadsWithin (d.registry.targetOf p) x) (path : Path)
    (seen : Seen) (within : (slot.encode p seen).1.staysWithin d.maxDepth path.length = true) :
    Unexceeded (d.readSlot p path (slot.encode p seen).1) := by
  unfold readSlot contentOf Slot.empty
  cases sound with
  | unset =>
    rw [Slot.isSet_empty] at set
    cases set
  | scalar holds single =>
    simp only [holds, single]
    exact (Unexceeded.scalar path _).map
  | list holds many =>
    simp only [holds, many]
    refine (Unexceeded.of_moved fun limit => ?_).map
    exact decodeList_under .root limit
      (fun json path => ScalarKind.decode_under .root limit path json _ _) path _
  | reference holds single sound =>
    rw [Registry.targetOf_eq holds] at inside
    rw [Slot.encode] at within ⊢
    simp only [holds, single]
    exact (unexceeded_reference sound inside path seen within).map
  | references holds many sound =>
    rw [Registry.targetOf_eq holds] at inside
    rw [Slot.encode] at within ⊢
    simp only [holds, many]
    refine Unexceeded.map ?_
    rw [decodeReferenceList, decodeReferences_eq]
    refine Unexceeded.items (fun item among position => ?_) 0
    obtain ⟨reference, hr, seen', rfl⟩ := mem_encodeReferences among
    refine unexceeded_reference (sound reference hr)
      (fun x hx => inside x (List.mem_flatMap.mpr ⟨reference, hr, hx⟩)) _ seen' ?_
    simpa using Json.staysWithin_list.mp within _ among

theorem unexceeded_value {value : Extension} (sound : value.Sound unbounded)
    (inside : ∀ x ∈ value.objects, d.RereadsWithin none x) :
    ∀ path seen, (value.encode seen).1.staysWithin d.maxDepth path.length = true →
      Unexceeded (d.decodeExtension path (value.encode seen).1) := by
  induction value using Extension.induct with
  | reference target =>
    intro path seen within
    cases sound with
    | object o =>
      rw [Extension.encode, encode_unshared] at within ⊢
      refine Unexceeded.map ?_
      exact inside o List.mem_cons_self path _ (fun m => Object.writes_of_mem_encode) within
  | string s => exact fun path seen _ => .ok _
  | boolean b => exact fun path seen _ => .ok _
  | integer n =>
    intro path seen _
    simp only [Extension.encode, decodeExtension, extensionOf, Scalar.toInt64?_toInt]
    exact .ok _
  | float x =>
    intro path seen _
    cases x with
    | finite negative rank => exact .ok _
    | _ => exact .failAt path (by simp)
  | list values ih =>
    cases sound with
    | list sound =>
      intro path seen within
      rw [Extension.encode] at within ⊢
      refine Unexceeded.map ?_
      rw [decodeExtensionList, decodeExtensions_eq]
      refine Unexceeded.items (fun item among position => ?_) 0
      obtain ⟨value, hv, seen', rfl⟩ := mem_encodeExtensionValues among
      refine ih value hv (sound value hv)
        (fun x hx => inside x (mem_extensionObjects.mpr ⟨value, hv, hx⟩)) _ seen' ?_
      simpa using Json.staysWithin_list.mp within _ among

/-- A member that an object is written with means what it was written for, so the values in it are
read as what they were. -/
theorem unexceeded_member (distinct : d.registry.KeysDistinct)
    (sound : o.Sound d.registry searched unbounded target)
    (inside : ∀ inner x, o.Holds d.registry inner x → d.RereadsWithin inner x) {m : String × Json}
    (writes : o.Writes m) (path : Path)
    (within : m.2.staysWithin d.maxDepth (path.length + 1) = true) :
    Unexceeded (d.readMember path o.cls m.1 m.2) := by
  have filled := sound.filled
  rw [readMember]
  cases writes with
  | type =>
    rw [NodeClass.memberRole_type]
    exact .ok _
  | id there =>
    rw [NodeClass.memberRole_idKey (filled.id _ there).1]
    exact (Unexceeded.of_moved fun limit => decodeId_under .root limit _ _).map
  | @slot p slot seen there set =>
    obtain ⟨place, hi⟩ := List.mem_iff_getElem?.mp there
    obtain ⟨hp, hs⟩ := Object.getElem?_properties.mp hi
    rw [distinct.memberRole_of_mem_keys sound.registered hp p.key_mem_keys]
    simp only [hp]
    refine (unexceeded_slot (filled.slots place p slot hp hs) set ?_ _ seen ?_).map
    · exact fun x hx => inside _ x (.inSlot there hx)
    · simpa using within
  | @extension key values seen there nonempty =>
    obtain ⟨role, each⟩ := filled.extensions key values there
    rw [role]
    refine Unexceeded.map ?_
    show Unexceeded (d.decodeExtensions (path.member key) 0 _)
    rw [decodeExtensions_eq]
    refine Unexceeded.items (fun item among position => ?_) 0
    obtain ⟨value, hv, seen', rfl⟩ := mem_encodeExtensionValues among
    refine unexceeded_value (each value hv) (fun x hx => inside none x (.inExtension there hv hx)) _
      seen' ?_
    simpa using Json.staysWithin_list.mp within _ among

/-- The type name that an object is written with is its own. -/
theorem eq_typeIri_of_typeName (distinct : d.registry.KeysDistinct)
    (sound : o.Sound d.registry searched unbounded target) (writes : ∀ m ∈ members, o.Writes m)
    {type : String} (named : typeName path members = .ok type) : type = o.typeIri := by
  have written := writes _ (Members.mem_of_get? (typeName_eq_ok.mp named))
  generalize same : ("@type", Json.string type) = m at written
  cases written with
  | type => exact Json.string.inj (congrArg Prod.snd same)
  | id there => exact absurd (congrArg Prod.fst same).symm (sound.filled.id _ there).1
  | @slot p slot seen there =>
    have declared := (List.of_mem_zip there).1
    obtain ⟨notType, -⟩ :=
      distinct.reserved o.cls sound.registered p declared p.key p.key_mem_keys
    exact absurd (congrArg Prod.fst same).symm notType
  | extension => cases congrArg Prod.snd same

/-- What an object is written as does not exceed a limit that it stays within, by induction on what
the object holds. -/
theorem rereadsWithin (distinct : d.registry.KeysDistinct)
    (sound : o.SoundThroughout d.registry searched unbounded target) :
    d.RereadsWithin target o := by
  induction sound with
  | @intro target o here inside ih =>
    intro path members writes within
    obtain ⟨above, below⟩ := Json.staysWithin_object.mp within
    obtain ⟨type, observed, chosen⟩ := here.typed
    rw [decodeObject, if_neg (Nat.not_lt.mpr above)]
    refine (Unexceeded.of_moved fun limit => typeName_under .root limit path members).bind
      fun name named => ?_
    obtain rfl := eq_typeIri_of_typeName distinct here writes named
    have same : o.typeIri = type := by rw [Object.typeIri, observed]; rfl
    rw [same]
    refine (Unexceeded.of_moved fun limit => choose_under d .root limit path type target).bind
      fun choice choose => ?_
    cases choice with
    | only cls =>
      have own : cls = o.cls := by
        rcases choose_of_chosen path chosen with only | ⟨-, -, first⟩
        · cases choose.symm.trans only
          rfl
        · cases choose.symm.trans first
      subst own
      refine unexceeded_members (fun m among => ?_) (Object.shaped_ofType _ _) rfl
      exact unexceeded_member distinct here ih (writes m among) path (below m among)
    | firstOf candidates =>
      -- What a candidate fails at is not passed on.
      dsimp only
      split
      · exact .ok _
      · exact .failAt path (by simp)

end Decoder

end ShapedGraph

import ShapedGraph.Proofs.Assembly
import ShapedGraph.Proofs.Encoding
import ShapedGraph.Proofs.Pruning
import ShapedGraph.Proofs.Soundness
import ShapedGraph.Proofs.Typing

/-! What an object that was read is written as can be read again, by the same class. If no class has
to be searched for, it is read as the same object without the undeclared members that hold no
value. -/

namespace ShapedGraph

namespace Decoder

/-- What an object is written as can be read at a place, as the same object but for what is never
written, unless a class may have been searched for. -/
def Rereads (d : Decoder) (searched : Prop) (target : Option NodeClass) (o : Object) : Prop :=
  ∀ path seen, (Json.object (o.encode seen).1).staysWithin d.maxDepth path.length = true →
    ∃ o', d.decodeObject path target (.object (o.encode seen).1) = .ok o' ∧
      (¬searched → o' = o.pruned)

variable {d : Decoder} {searched : Prop} {target : Option NodeClass} {context : Context}

theorem encode_unshared (o : Object) (context : Context) (seen : Seen) :
    ((Reference.object none o).encode context seen).1 = .object (o.encode seen).1 := by
  rw [Reference.encode]
  cases o.id <;> rfl

theorem reread_reference {reference : Reference} (distinct : context.TokensDistinct)
    (sound : reference.Sound context)
    (inside : ∀ x ∈ reference.objects, d.Rereads searched target x) (path : Path) (seen : Seen)
    (depth : (reference.encode context seen).1.staysWithin d.maxDepth path.length = true) :
    ∃ reference', referenceOf context path (reference.encode context seen).1
        (fun _ => d.decodeObject path target (reference.encode context seen).1) = .ok reference' ∧
      (¬searched → reference' = reference.pruned) := by
  cases sound with
  | iri written shaped =>
    refine ⟨.iri (context.expand written), ?_, fun _ => rfl⟩
    refine Outcome.map_eq_ok.mpr ⟨_, Scalar.decodeIri_eq_ok.mpr ⟨_, rfl, ?_, shaped⟩, rfl⟩
    exact Context.expand_compact_expand distinct written
  | object o =>
    rw [encode_unshared] at depth ⊢
    obtain ⟨o', read, same⟩ := inside o List.mem_cons_self path seen depth
    refine ⟨.object none o', Outcome.map_eq_ok.mpr ⟨o', read, rfl⟩, fun settled => ?_⟩
    rw [same settled]
    rfl

theorem reread_references {targets : List Reference} (distinct : context.TokensDistinct)
    (sound : ∀ reference ∈ targets, reference.Sound context)
    (inside : ∀ reference ∈ targets, ∀ x ∈ reference.objects, d.Rereads searched target x)
    (path : Path) (position : Nat) (seen : Seen)
    (depth : ∀ item ∈ (encodeReferences targets context seen).1,
      item.staysWithin d.maxDepth (path.length + 1) = true) :
    ∃ targets', d.decodeReferences context target path position
        (encodeReferences targets context seen).1 = .ok targets' ∧
      (¬searched → targets' = targets.map Reference.pruned) := by
  induction targets generalizing position seen with
  | nil => exact ⟨[], rfl, fun _ => rfl⟩
  | cons reference targets ih =>
    rw [encodeReferences] at depth ⊢
    obtain ⟨here, later⟩ := List.forall_mem_cons.mp depth
    obtain ⟨reference', read, same⟩ := reread_reference distinct (sound _ List.mem_cons_self)
      (inside _ List.mem_cons_self) (path.item position) seen (by simpa using here)
    obtain ⟨targets', reads, same'⟩ := ih (fun r hr => sound r (List.mem_cons_of_mem _ hr))
      (fun r hr => inside r (List.mem_cons_of_mem _ hr)) (position + 1) _ later
    refine ⟨reference' :: targets', ?_, fun settled => ?_⟩
    · rw [decodeReferences, read]
      show (decodeReferences _ _ _ _ _ _ >>= _) = _
      rw [reads]
      rfl
    · rw [same settled, same' settled, List.map_cons]

theorem decodeItems_encode {kind : ScalarKind} (distinct : context.TokensDistinct)
    {values : List Scalar} (reads : ∀ value ∈ values, kind.Reads context value) (path : Path)
    (position : Nat) : decodeItems (kind.decode context) path position
      (values.map (kind.encode context)) = .ok values := by
  induction values generalizing position with
  | nil => rfl
  | cons value values ih =>
    obtain ⟨first, rest⟩ := List.forall_mem_cons.mp reads
    exact decodeItems_cons (first.decode_encode distinct _) (ih rest _)

/-- A slot that is set is read again from what it is written as. -/
theorem reread_slot {p : Property} {slot : Slot} (distinct : p.context.TokensDistinct)
    (sound : slot.Sound p) (set : slot.isSet = true)
    (inside : ∀ x ∈ slot.objects, d.Rereads searched (d.registry.targetOf p) x) (path : Path)
    (seen : Seen) (depth : (slot.encode p seen).1.staysWithin d.maxDepth path.length = true) :
    ∃ slot', d.ReadsSlot p path (slot.encode p seen).1 slot' ∧
      (¬searched → slot' = slot.pruned) := by
  cases sound with
  | unset =>
    revert set
    unfold Slot.empty
    split <;> exact nofun
  | @scalar kind value holds single reads =>
    rw [Slot.encode]
    simp only [holds]
    exact ⟨_, .scalar holds single (reads.decode_encode distinct path), fun _ => rfl⟩
  | @list kind values holds many reads =>
    rw [Slot.encode]
    simp only [holds]
    exact ⟨_, .list holds many (decodeItems_encode distinct reads path 0), fun _ => rfl⟩
  | @reference cls reference holds single sound =>
    rw [Slot.encode] at depth ⊢
    obtain ⟨reference', read, same⟩ := reread_reference distinct sound inside path seen depth
    refine ⟨.reference reference', .reference holds single read, fun settled => ?_⟩
    rw [same settled, Slot.pruned]
  | @references cls targets holds many sound =>
    rw [Slot.encode] at depth ⊢
    obtain ⟨targets', read, same⟩ := reread_references distinct sound
      (fun r hr x hx => inside x (List.mem_flatMap.mpr ⟨r, hr, hx⟩)) path 0 seen
      (Json.staysWithin_list.mp depth)
    refine ⟨.references targets', .references holds many read, fun settled => ?_⟩
    rw [same settled, Slot.pruned, prunedReferences_eq]

/-- A value of an undeclared member is read again from what it is written as. -/
def RereadsValue (d : Decoder) (searched : Prop) (value : Extension) : Prop :=
  ∀ path seen, (value.encode seen).1.staysWithin d.maxDepth path.length = true →
    ∃ value', d.decodeExtension path (value.encode seen).1 = .ok value' ∧
      (¬searched → value' = value.pruned)

theorem reread_values {values : List Extension}
    (each : ∀ value ∈ values, d.RereadsValue searched value) (path : Path) (position : Nat)
    (seen : Seen) (depth : ∀ item ∈ (encodeExtensionValues values seen).1,
      item.staysWithin d.maxDepth (path.length + 1) = true) :
    ∃ values', d.decodeExtensions path position (encodeExtensionValues values seen).1 =
        .ok values' ∧ (¬searched → values' = values.map Extension.pruned) := by
  induction values generalizing position seen with
  | nil => exact ⟨[], rfl, fun _ => rfl⟩
  | cons value values ih =>
    rw [encodeExtensionValues] at depth ⊢
    obtain ⟨here, later⟩ := List.forall_mem_cons.mp depth
    obtain ⟨value', read, same⟩ :=
      each value List.mem_cons_self (path.item position) seen (by simpa using here)
    obtain ⟨values', reads, same'⟩ :=
      ih (fun v hv => each v (List.mem_cons_of_mem _ hv)) (position + 1) _ later
    refine ⟨value' :: values', ?_, fun settled => ?_⟩
    · rw [decodeExtensions_eq] at reads ⊢
      exact decodeItems_cons read reads
    · rw [same settled, same' settled, List.map_cons]

theorem reread_value {value : Extension} (sound : value.Sound False)
    (inside : ∀ x ∈ value.objects, d.Rereads searched none x) : d.RereadsValue searched value := by
  induction value using Extension.induct with
  | reference target =>
    cases sound with
    | object o =>
      intro path seen depth
      rw [Extension.encode, encode_unshared] at depth ⊢
      obtain ⟨o', read, same⟩ := inside o List.mem_cons_self path seen depth
      refine ⟨.reference (.object none o'), Outcome.map_eq_ok.mpr ⟨o', read, rfl⟩,
        fun settled => ?_⟩
      rw [same settled]
      rfl
  | string s => exact fun path seen _ => ⟨.string s, rfl, fun _ => rfl⟩
  | boolean b => exact fun path seen _ => ⟨.boolean b, rfl, fun _ => rfl⟩
  | integer n =>
    intro path seen _
    refine ⟨.integer n, ?_, fun _ => rfl⟩
    simp only [Extension.encode, decodeExtension, extensionOf, Scalar.toInt64?_toInt]
  | float x =>
    cases sound with
    | float finite =>
      obtain ⟨negative, rank, rfl⟩ := finite.resolve_left not_false
      exact fun path seen _ => ⟨.float (.finite negative rank), rfl, fun _ => rfl⟩
  | list values ih =>
    cases sound with
    | list sound =>
      intro path seen depth
      rw [Extension.encode] at depth ⊢
      have each : ∀ value ∈ values, d.RereadsValue searched value := fun value hv =>
        ih value hv (sound value hv) fun x hx => inside x (mem_extensionObjects.mpr ⟨value, hv, hx⟩)
      obtain ⟨values', reads, same⟩ :=
        reread_values each path 0 seen (Json.staysWithin_list.mp depth)
      refine ⟨.list values', Outcome.map_eq_ok.mpr ⟨values', reads, rfl⟩, fun settled => ?_⟩
      rw [same settled, Extension.pruned, prunedValues_eq]

/-- A member that an object is written with is read again, as a part that the object has. -/
theorem reread_member {o : Object} (unambiguous : d.registry.Unambiguous)
    (sound : o.SoundThroughout d.registry searched False target)
    (inside : ∀ inner x, o.Holds d.registry inner x → d.Rereads searched inner x)
    {m : String × Json} (writes : o.Writes m) (path : Path)
    (depth : m.2.staysWithin d.maxDepth (path.length + 1) = true) :
    ∃ part, d.ReadsMember path o.cls m.1 m.2 part ∧ (¬searched → o.pruned.Has part) := by
  have filled := sound.here.filled
  have registered := sound.here.registered
  cases writes with
  | type => exact ⟨.nothing, .type (NodeClass.memberRole_type _), fun _ => trivial⟩
  | @id text there =>
    obtain ⟨free, shaped⟩ := filled.id text there
    exact ⟨.id text, .id (NodeClass.memberRole_idKey free) (decodeId_eq_ok.mpr ⟨rfl, shaped⟩),
      fun _ => (o.pruned_id).trans there⟩
  | @slot p slot seen there set =>
    obtain ⟨place, hi⟩ := List.mem_iff_getElem?.mp there
    obtain ⟨hp, hs⟩ := Object.getElem?_properties.mp hi
    have distinct := unambiguous.tokens o.cls registered p (List.mem_of_getElem? hp)
    obtain ⟨slot', read, same⟩ := reread_slot distinct (filled.slots place p slot hp hs) set
      (fun x hx => inside _ x (.inSlot there hx)) (path.member p.key) seen (by simpa using depth)
    refine ⟨.slot place slot', .slot (unambiguous.memberRole_key registered hp) hp read,
      fun settled => ?_⟩
    show o.pruned.slots[place]? = some slot'
    rw [Object.pruned_slots, List.getElem?_map, hs, same settled]
    rfl
  | @extension key values seen there nonempty =>
    obtain ⟨role, each⟩ := filled.extensions key values there
    obtain ⟨values', reads, same⟩ := reread_values
      (fun value hv => reread_value (each value hv) fun x hx =>
        inside none x (.inExtension there hv hx)) (path.member key) 0 seen
      (by simpa using Json.staysWithin_list.mp depth)
    refine ⟨.extension key values', .extension role reads, fun settled => ?_⟩
    rw [same settled]
    refine Members.get?_of_mem ?_ ?_
    · rw [Object.pruned_extensions]
      exact sorted_prunedExtensions filled.sorted
    · rw [Object.pruned_extensions]
      exact mem_prunedExtensions.mpr ⟨values, there, nonempty, rfl⟩

theorem exists_parts {α : Type} {f : α → Decoded Part} {Q : Part → Prop} {l : List α}
    (each : ∀ a ∈ l, ∃ part, f a = .ok part ∧ Q part) :
    ∃ parts : List Part, l.map f = parts.map .ok ∧ ∀ part ∈ parts, Q part := by
  induction l with
  | nil => exact ⟨[], rfl, nofun⟩
  | cons a l ih =>
    obtain ⟨first, rest⟩ := List.forall_mem_cons.mp each
    obtain ⟨part, read, holds⟩ := first
    obtain ⟨parts, reads, all⟩ := ih rest
    exact ⟨part :: parts, by rw [List.map_cons, List.map_cons, read, reads],
      List.forall_mem_cons.mpr ⟨holds, all⟩⟩

/-- What is written under a key is read to one of the parts. -/
theorem exists_part_of_writes {o : Object} {m : String × Json} (writes : o.Writes m) {path : Path}
    {seen : Seen} {parts : List Part} (reads : (o.encode seen).1.map
      (fun m => d.readMember path o.cls m.1 m.2) = parts.map .ok) :
    ∃ value, ∃ part ∈ parts, d.ReadsMember path o.cls m.1 value part := by
  obtain ⟨value, there⟩ := Object.hasKey_encode writes seen
  have read := List.mem_map_of_mem (f := fun m => d.readMember path o.cls m.1 m.2) there
  rw [reads] at read
  obtain ⟨part, member, same⟩ := List.mem_map.mp read
  exact ⟨value, part, member, readMember_eq_ok.mp same.symm⟩

/-- The parts that members were read to are pending for the object that they were written from. -/
theorem pending_of_encode {o : Object} (unambiguous : d.registry.Unambiguous)
    (sound : o.Sound d.registry searched False target) {path : Path} {seen : Seen}
    {parts : List Part} (reads : (o.encode seen).1.map
      (fun m => d.readMember path o.cls m.1 m.2) = parts.map .ok) :
    Object.Pending parts (.ofType o.cls o.typeIri) o.pruned := by
  have filled := sound.filled
  obtain ⟨type, observed, -⟩ := sound.typed
  refine ⟨(o.pruned_cls).symm, ?_, ?_, ?_, fun place => ?_, Members.sorted_nil, ?_, fun key => ?_⟩
  · rw [Object.pruned_observedType, observed, Object.typeIri, observed]
    rfl
  · rw [Object.pruned_id]
    cases there : o.id with
    | none => exact .inl rfl
    | some text =>
      have role := NodeClass.memberRole_idKey (filled.id text there).1
      obtain ⟨value, part, member, read⟩ := exists_part_of_writes (.id there) reads
      cases read with
      | id => exact .inr ⟨_, member⟩
      | type role' | slot role' | extension role' => cases role.symm.trans role'
  · rw [Object.pruned_slots, List.length_map, filled.shaped.length]
    exact List.length_map _
  · rw [Object.pruned_slots, List.getElem?_map]
    show (o.cls.layout.map Slot.empty)[place]? = _ ∨ _
    rw [List.getElem?_map]
    cases hp : o.cls.layout[place]? with
    | none =>
      have : o.slots.length ≤ place := filled.shaped.length ▸ List.getElem?_eq_none_iff.mp hp
      rw [List.getElem?_eq_none this]
      exact .inl rfl
    | some p =>
      obtain ⟨slot, hs⟩ := filled.shaped.getElem?_slots hp
      cases set : slot.isSet with
      | false =>
        left
        rw [hs, Option.map_some, Option.map_some, Slot.pruned_of_isSet_eq_false set,
          filled.shaped.cleared hp hs]
      | true =>
        have there := List.mem_of_getElem? (Object.getElem?_properties.mpr ⟨hp, hs⟩)
        have role := unambiguous.memberRole_key sound.registered hp
        obtain ⟨value, part, member, read⟩ := exists_part_of_writes (.slot seen there set) reads
        cases read with
        | slot role' =>
          cases role.symm.trans role'
          exact .inr ⟨_, member⟩
        | type role' | id role' | extension role' => cases role.symm.trans role'
  · rw [Object.pruned_extensions]
    exact sorted_prunedExtensions filled.sorted
  · rw [Object.pruned_extensions]
    cases found : Members.get? (prunedExtensions o.extensions) key with
    | none => exact .inl rfl
    | some values =>
      obtain ⟨old, there, nonempty, -⟩ := mem_prunedExtensions.mp (Members.mem_of_get? found)
      have role := (filled.extensions key old there).1
      obtain ⟨value, part, member, read⟩ :=
        exists_part_of_writes (.extension seen there nonempty) reads
      cases read with
      | extension => exact .inr ⟨_, member⟩
      | type role' | id role' | slot role' => cases role.symm.trans role'

/-- The members that an object is written as are read again by its class. -/
theorem reread_members {o : Object} (unambiguous : d.registry.Unambiguous)
    (sound : o.SoundThroughout d.registry searched False target)
    (inside : ∀ inner x, o.Holds d.registry inner x → d.Rereads searched inner x) (path : Path)
    (seen : Seen)
    (depth : (Json.object (o.encode seen).1).staysWithin d.maxDepth path.length = true) :
    ∃ o', d.decodeMembers path (o.encode seen).1 (.ofType o.cls o.typeIri) = .ok o' ∧
      (¬searched → o' = o.pruned) := by
  obtain ⟨-, depth⟩ := Json.staysWithin_object.mp depth
  have each : ∀ m ∈ (o.encode seen).1, ∃ part, d.readMember path o.cls m.1 m.2 = .ok part ∧
      (¬searched → o.pruned.Has part) := by
    intro m hm
    obtain ⟨part, read, has⟩ := reread_member unambiguous sound inside
      (Object.writes_of_mem_encode hm) path (depth m hm)
    exact ⟨part, readMember_eq_ok.mpr read, has⟩
  obtain ⟨parts, reads, has⟩ := exists_parts each
  refine ⟨_, (decodeMembers_eq_ok (Object.shaped_ofType _ _)).mpr ⟨parts, reads, rfl⟩,
    fun settled => ?_⟩
  exact Object.foldl_put_of_pending (pending_of_encode unambiguous sound.here reads)
    fun part hp => has part hp settled

/-- The type name that an object is written with is found again. -/
theorem typeName_encode {o : Object} (unambiguous : d.registry.Unambiguous)
    (sound : o.Sound d.registry searched False target) (path : Path) (seen : Seen) :
    typeName path (o.encode seen).1 = .ok o.typeIri := by
  refine typeName_eq_ok.mpr ?_
  obtain ⟨value, found⟩ := (Object.hasKey_encode (Object.Writes.type (o := o)) seen).get?
  rw [found]
  have writes := Object.writes_of_mem_encode (Members.mem_of_get? found)
  -- No other member has the key of the type.
  generalize same : ("@type", value) = m at writes
  cases writes with
  | type =>
    cases same
    rfl
  | id there => exact absurd (congrArg Prod.fst same).symm (sound.filled.id _ there).1
  | @slot p slot seen there =>
    have layout := (List.of_mem_zip there).1
    obtain ⟨notType, -⟩ := unambiguous.reserved o.cls sound.registered p layout p.key p.key_mem_keys
    exact absurd (congrArg Prod.fst same).symm notType
  | extension seen there =>
    have role := (sound.filled.extensions _ _ there).1
    cases (Prod.ext_iff.mp same).1
    cases (NodeClass.memberRole_type o.cls).symm.trans role

/-- An object that was read is read again, and so are the objects inside it. -/
theorem rereads {o : Object} (unambiguous : d.registry.Unambiguous)
    (sound : o.SoundThroughout d.registry searched False target) : d.Rereads searched target o := by
  induction sound with
  | @intro target o here inside ih =>
    have sound : o.SoundThroughout d.registry searched False target := .intro here inside
    intro path seen depth
    obtain ⟨type, observed, chosen⟩ := here.typed
    have named : o.typeIri = type := by rw [Object.typeIri, observed]; rfl
    obtain ⟨o', read, same⟩ := reread_members unambiguous sound ih path seen depth
    have within := (Json.staysWithin_object.mp depth).1
    have typed : typeName path (o.encode seen).1 = .ok type :=
      named ▸ typeName_encode unambiguous here path seen
    rw [named] at read
    rcases choose_of_chosen path chosen with only | ⟨search, among, first⟩
    · exact ⟨o', (decodeObject_of_only within typed only).trans read, same⟩
    · -- Some candidate reads the members, since the class of the object does.
      have found : (d.registry.candidates target).findSome? (fun cls =>
          (d.decodeMembers path (o.encode seen).1 (.ofType cls type)).toOption) ≠ none := by
        intro none
        have := List.findSome?_eq_none_iff.mp none o.cls among
        rw [read] at this
        cases this
      obtain ⟨x, hx⟩ := Option.ne_none_iff_exists'.mp found
      exact ⟨x, (decodeObject_of_firstOf within typed first).mpr hx, fun h => absurd search h⟩

/-- An object that was read without a search for a class is read again from what it is written as,
but for the undeclared members that hold no value, as long as no object in there stands too deep. -/
theorem decodeObject_toJson {registry : Registry} {maxDepth maxDepth' : Nat} {path path' : Path}
    {json : Json} {o : Object} (unambiguous : registry.Unambiguous)
    (registered : ∀ t, target = some t → t ∈ registry.classes)
    (representable : json.Representable) (settled : json.Settled registry target)
    (read : (Decoder.mk registry maxDepth).decodeObject path target json = .ok o)
    (depth : o.toJson.staysWithin maxDepth' path'.length = true) :
    (Decoder.mk registry maxDepth').decodeObject path' target o.toJson = .ok o.pruned := by
  have sound : o.SoundThroughout registry False False target :=
    (readsSoundly ⟨registry, maxDepth⟩ False False json (.inr representable)).object path target o
      registered (.inr settled) read
  have again : (Decoder.mk registry maxDepth').Rereads False target o := rereads unambiguous sound
  obtain ⟨o', reread, same⟩ := again path' [] depth
  rw [same not_false] at reread
  exact reread

end Decoder

theorem Sample.document_roundTrip : ∃ o,
    (Decoder.mk Sample.registry 9).decodeObject .root none Sample.document = .ok o ∧
      o.toJson.staysWithin 9 0 = true ∧
        (Decoder.mk Sample.registry 9).decodeObject .root none o.toJson = .ok o.pruned := by
  have unambiguous : Sample.registry.Unambiguous := by decide +kernel
  have unasked : ∀ t, none = some t → t ∈ Sample.registry.classes := nofun
  have tool : (Json.object [("@type", .string "ex:Tool"), ("size", .integer 5)]).Representable := by
    refine .object ?_
    simp only [List.forall_mem_cons]
    exact ⟨.string _, .integer (by decide) (by decide), nofun⟩
  have representable : Sample.document.Representable := by
    refine .object ?_
    simp only [List.forall_mem_cons]
    refine ⟨.string _, .string _, .list ?_, .object ?_, nofun⟩
    · simp only [List.forall_mem_cons]
      exact ⟨.string _, tool, nofun⟩
    · simp only [List.forall_mem_cons]
      exact ⟨.string _, .list nofun, nofun⟩
  have settled : Sample.document.Settled Sample.registry none := by
    refine .object rfl (.inl rfl) ?_
    simp only [List.forall_mem_cons]
    refine ⟨.string _, .string _, .list ?_, .object rfl (.inl rfl) ?_, nofun⟩
    · -- The tool stands for an item.
      simp only [List.forall_mem_cons]
      refine ⟨.string _, .object rfl (.inr ⟨rfl, rfl, rfl⟩) ?_, nofun⟩
      simp only [List.forall_mem_cons]
      exact ⟨.string _, .integer _, nofun⟩
    · simp only [List.forall_mem_cons]
      exact ⟨.string _, .list nofun, nofun⟩
  obtain ⟨o, read, depth⟩ : ∃ o,
      (Decoder.mk Sample.registry 9).decodeObject .root none Sample.document = .ok o ∧
        o.toJson.staysWithin 9 0 = true := ⟨_, rfl, rfl⟩
  exact ⟨o, read, depth, Decoder.decodeObject_toJson unambiguous unasked representable settled read
    depth⟩

end ShapedGraph

import ShapedGraph.Proofs.Apart
import ShapedGraph.Proofs.Displacement
import ShapedGraph.Proofs.Limits

/-! An undeclared member that is added to an object. It is written beside the others and changes
nothing in them, and when the object is read again it is there beside what is read of the others.
Its values come back as they were, except that an IRI is written as a text and read as one. -/

namespace ShapedGraph

/-! ## The values -/

/-- A value without objects that can be written in full: texts, numbers, truth values and lists of
such values, and IRIs if they are allowed. -/
inductive Extension.Plain (iris : Prop) : Extension → Prop where
  | iri (text : String) (allowed : iris) : Plain iris (.reference (.iri text))
  | string (s : String) : Plain iris (.string s)
  | integer (n : Int64) : Plain iris (.integer n)
  | float (negative : Bool) (rank : Fin rankCount) : Plain iris (.float (.finite negative rank))
  | boolean (b : Bool) : Plain iris (.boolean b)
  | list {values : List Extension} (each : ∀ value ∈ values, Plain iris value) :
    Plain iris (.list values)

mutual

/-- What a value is read as after it was written: a text in the place of each IRI. -/
def Extension.reread (value : Extension) : Extension :=
  match value with
  | .reference (.iri text) => .string text
  | .list values => .list (rereadValues values)
  | other => other
termination_by structural value

def rereadValues (values : List Extension) : List Extension :=
  match values with
  | [] => []
  | value :: values => value.reread :: rereadValues values
termination_by structural values

end

theorem rereadValues_eq (values : List Extension) :
    rereadValues values = values.map Extension.reread := by
  induction values with
  | nil => rfl
  | cons value values ih => rw [rereadValues, ih, List.map_cons]

@[simp] theorem Extension.reread_list (values : List Extension) :
    (Extension.list values).reread = .list (values.map Extension.reread) := by
  rw [reread, rereadValues_eq]

theorem map_eq_self_iff {α : Type} {f : α → α} {l : List α} :
    l.map f = l ↔ ∀ a ∈ l, f a = a := by
  simpa using List.map_inj_left (f := f) (g := id) (l := l)

/-- A value comes back as it was if and only if there is no IRI in it. -/
theorem Extension.Plain.reread_eq_self_iff {value : Extension} (plain : value.Plain True) :
    value.reread = value ↔ value.Plain False := by
  induction plain with
  | iri text => exact iff_of_false nofun fun plain => by cases plain; assumption
  | string s => exact iff_of_true rfl (.string s)
  | integer n => exact iff_of_true rfl (.integer n)
  | float negative rank => exact iff_of_true rfl (.float negative rank)
  | boolean b => exact iff_of_true rfl (.boolean b)
  | @list values _ ih =>
    rw [reread_list, Extension.list.injEq, map_eq_self_iff]
    constructor
    · exact fun same => .list fun value among => (ih value among).mp (same value among)
    · intro plain value among
      cases plain with
      | list each => exact (ih value among).mpr (each value among)

/-- What values are written as does not depend on what was written before, and can be read. -/
theorem exists_items_of_each {d : Decoder} {values : List Extension}
    (each : ∀ value ∈ values, ∃ json, (∀ seen, value.encode seen = (json, seen)) ∧
      ∀ path, d.decodeExtension path json = .ok value.reread) :
    ∃ items, (∀ seen, encodeExtensionValues values seen = (items, seen)) ∧
      ∀ path position, d.decodeExtensions path position items =
        .ok (values.map Extension.reread) := by
  induction values with
  | nil => exact ⟨[], fun _ => rfl, fun _ _ => rfl⟩
  | cons value values ih =>
    obtain ⟨⟨json, written, read⟩, later⟩ := List.forall_mem_cons.mp each
    obtain ⟨items, writtens, reads⟩ := ih later
    refine ⟨json :: items, fun seen => ?_, fun path position => ?_⟩
    · simp only [encodeExtensionValues, written, writtens]
    · have later := reads path (position + 1)
      rw [Decoder.decodeExtensions_eq] at later ⊢
      exact decodeItems_cons (read _) later

theorem Extension.Plain.exists_json {value : Extension} (plain : value.Plain True) (d : Decoder) :
    ∃ json, (∀ seen, value.encode seen = (json, seen)) ∧
      ∀ path, d.decodeExtension path json = .ok value.reread := by
  induction plain with
  | iri text | string s | boolean b => exact ⟨_, fun _ => rfl, fun _ => rfl⟩
  | float negative rank => exact ⟨_, fun _ => rfl, fun _ => rfl⟩
  | integer n =>
    refine ⟨.integer n.toInt, fun _ => rfl, fun path => ?_⟩
    simp only [Decoder.decodeExtension, Decoder.extensionOf, Scalar.toInt64?_toInt, reread]
  | list _ ih =>
    obtain ⟨items, written, reads⟩ := exists_items_of_each ih
    refine ⟨.list items, fun seen => ?_, fun path => ?_⟩
    · rw [Extension.encode, written]
    · rw [reread_list]
      exact Outcome.map_eq_ok.mpr ⟨_, reads path 0, rfl⟩

/-! ## How the member is written -/

theorem encodeSlots_of_unset {slots : List Slot} (unset : ∀ slot ∈ slots, slot.isSet = false)
    (layout : List Property) (members : Members Json) (seen : Seen) :
    encodeSlots layout slots members seen = (members, seen) := by
  induction slots generalizing layout with
  | nil => exact encodeSlots_nil_right ..
  | cons slot slots ih =>
    obtain ⟨here, later⟩ := List.forall_mem_cons.mp unset
    cases layout with
    | nil => exact encodeSlots_nil_left ..
    | cons p layout =>
      rw [encodeSlots, if_neg (by simp [here])]
      exact ih later layout

/-- A member that is there before undeclared members are put in stays if none of them has its key.
-/
theorem encodeExtensions_insert_members {extensions : List (String × List Extension)} {key : String}
    (absent : ∀ extension ∈ extensions, extension.1 ≠ key) (members : Members Json) (json : Json)
    (seen : Seen) : encodeExtensions extensions (members.insert key json) seen =
      ((encodeExtensions extensions members seen).1.insert key json,
        (encodeExtensions extensions members seen).2) := by
  induction extensions generalizing members seen with
  | nil => rfl
  | cons extension extensions ih =>
    obtain ⟨name, values⟩ := extension
    obtain ⟨other, absent⟩ := List.forall_mem_cons.mp absent
    rw [encodeExtensions, encodeExtensions]
    split
    · exact ih absent members seen
    · dsimp only
      rw [Members.insert_comm _ (Ne.symm other), ih absent]

/-- A member among the undeclared ones whose values are written without regard to others is written
beside what is written without it. -/
theorem encodeExtensions_insert {extensions : List (String × List Extension)} {key : String}
    {values : List Extension} {items : List Json}
    (absent : ∀ extension ∈ extensions, extension.1 ≠ key) (nonempty : values ≠ [])
    (written : ∀ seen, encodeExtensionValues values seen = (items, seen)) (members : Members Json)
    (seen : Seen) : encodeExtensions (Members.insert extensions key values) members seen =
      ((encodeExtensions extensions members seen).1.insert key (.list items),
        (encodeExtensions extensions members seen).2) := by
  have filled : ¬ values.isEmpty = true := by simpa using nonempty
  induction extensions generalizing members seen with
  | nil =>
    show encodeExtensions [(key, values)] members seen = (members.insert key (.list items), seen)
    rw [encodeExtensions, if_neg filled, written]
    rfl
  | cons extension extensions ih =>
    obtain ⟨name, others⟩ := extension
    obtain ⟨other, later⟩ := List.forall_mem_cons.mp absent
    rw [Members.insert, if_neg (Ne.symm other)]
    split
    · rw [encodeExtensions, if_neg filled, written]
      exact encodeExtensions_insert_members absent members _ seen
    · rw [encodeExtensions, encodeExtensions]
      split
      · exact ih later members seen
      · exact ih later _ _

namespace Object

variable {o : Object} {key : String} {values : List Extension}

theorem ne_of_mem_erase {extension : String × List Extension}
    (there : extension ∈ (o.deleteExtension key).extensions) : extension.1 ≠ key := by
  simpa using (List.mem_filter.mp there).2

/-- The object is as if the key had been free before. -/
theorem setExtension_eq (extensible : o.cls.isExtensible = true)
    (sorted : Members.Sorted o.extensions) (nonempty : values ≠ []) :
    o.setExtension key values = .ok ((o.deleteExtension key).put (.extension key values)) := by
  have stored : Members.insert o.extensions key values =
      Members.insert (Members.erase o.extensions key) key values := by
    refine Members.eq_of_get? (Members.sorted_insert sorted key values)
      (Members.sorted_insert (sorted.filter _) key values) fun other => ?_
    rw [Members.get?_insert, Members.get?_insert, Members.get?_erase]
    split <;> rfl
  rw [setExtension, if_pos extensible, if_neg (by simpa using nonempty), stored]
  rfl

/-- The member is written beside what is written without it. -/
theorem toJson_put_extension {items : List Json} (nonempty : values ≠ [])
    (written : ∀ seen, encodeExtensionValues values seen = (items, seen)) :
    ((o.deleteExtension key).put (.extension key values)).toJson =
      .object (Members.insert ((o.deleteExtension key).encode []).1 key (.list items)) := by
  rw [toJson, encode_eq, encode_eq]
  exact congrArg (fun written => Json.object written.1)
    (encodeExtensions_insert (fun _ => ne_of_mem_erase) nonempty written _ _)

/-- Nothing is written under a free key. -/
theorem ne_of_mem_encode (role : o.cls.memberRole key = .undeclared) (seen : Seen) :
    ∀ m ∈ ((o.deleteExtension key).encode seen).1, m.1 ≠ key := by
  obtain ⟨⟨notType, notIdKey, -⟩, -, undeclared⟩ := NodeClass.memberRole_eq_undeclared_iff.mp role
  intro m there
  cases writes_of_mem_encode there with
  | type => exact Ne.symm notType
  | id => exact Ne.symm notIdKey
  | @slot p _ _ inside =>
    rintro rfl
    exact undeclared p (List.of_mem_zip inside).1 p.key_mem_keys
  | extension _ inside => exact ne_of_mem_erase inside

end Object

/-! ## How the member is read -/

namespace Decoder

variable {d : Decoder} {path : Path} {target : Option NodeClass} {cls : NodeClass} {key : String}
  {value : Json} {members : List (String × Json)} {values : List Extension} {o x : Object}

/-- A part for an undeclared member can be put in before members with other keys are read or after
it. -/
theorem decodeMembers_put (shaped : o.Shaped) (absent : ∀ m ∈ members, m.1 ≠ key) :
    d.decodeMembers path members (o.put (.extension key values)) =
      (·.put (.extension key values)) <$> d.decodeMembers path members o := by
  induction members generalizing o with
  | nil => rfl
  | cons m members ih =>
    obtain ⟨name, value⟩ := m
    obtain ⟨other, absent⟩ := List.forall_mem_cons.mp absent
    have shaped' : (o.put (.extension key values)).Shaped := shaped
    rw [decodeMembers_cons shaped', decodeMembers_cons shaped, Object.put_cls]
    cases read : d.readMember path o.cls name value with
    | error => rfl
    | ok part =>
      have reads := readMember_eq_ok.mp read
      have apart : Part.Apart (.extension key values) part := by
        cases reads with
        | extension => exact Ne.symm other
        | type | id | slot => exact trivial
      show d.decodeMembers path members ((o.put _).put part) = _
      rw [Object.put_comm o apart]
      exact ih (shaped_put rfl shaped reads) absent

/-- An undeclared member that can be read is put in beside what is read of those behind it. -/
theorem decodeMembers_cons_extension (shaped : o.Shaped) (role : o.cls.memberRole key = .undeclared)
    (read : d.readExtensions (path.member key) value = .ok values)
    (absent : ∀ m ∈ members, m.1 ≠ key) :
    d.decodeMembers path ((key, value) :: members) o =
      (·.put (.extension key values)) <$> d.decodeMembers path members o := by
  rw [decodeMembers_cons shaped, readMember_eq_ok.mpr (.extension role read)]
  exact decodeMembers_put shaped absent

/-- An undeclared member that can be read is put in beside what is read of the others. -/
theorem decodeMembers_insert (shaped : o.Shaped) (role : o.cls.memberRole key = .undeclared)
    (read : d.readExtensions (path.member key) value = .ok values)
    (absent : ∀ m ∈ members, m.1 ≠ key) :
    d.decodeMembers path (Members.insert members key value) o =
      (·.put (.extension key values)) <$> d.decodeMembers path members o := by
  induction members generalizing o with
  | nil => exact decodeMembers_cons_extension shaped role read absent
  | cons m members ih =>
    obtain ⟨name, other⟩ := m
    obtain ⟨differs, later⟩ := List.forall_mem_cons.mp absent
    rw [Members.insert, if_neg (Ne.symm differs)]
    split
    · exact decodeMembers_cons_extension shaped role read absent
    · rw [decodeMembers_cons shaped, decodeMembers_cons shaped]
      cases here : d.readMember path o.cls name other with
      | error => rfl
      | ok part =>
        have role' : (o.put part).cls.memberRole key = .undeclared := by rwa [Object.put_cls]
        exact ih (shaped_put rfl shaped (readMember_eq_ok.mp here)) role' later

/-- Members that cannot be read without another cannot be read with it. -/
theorem exists_decodeMembers_of_insert (shaped : o.Shaped) (absent : ∀ m ∈ members, m.1 ≠ key)
    (reads : ∃ x, d.decodeMembers path (Members.insert members key value) o = .ok x) :
    ∃ x, d.decodeMembers path members o = .ok x := by
  obtain ⟨x, reads⟩ := reads
  obtain ⟨parts, reads, -⟩ := (decodeMembers_eq_ok shaped).mp reads
  have each := Outcome.exists_map_ok_iff.mp ⟨parts, reads⟩
  obtain ⟨parts, reads⟩ := Outcome.exists_map_ok_iff.mpr fun m there =>
    each m (Members.mem_insert_of_ne there (absent m there))
  exact ⟨_, (decodeMembers_eq_ok shaped).mpr ⟨parts, reads, rfl⟩⟩

/-- An object that is read is read with an undeclared member too, if its class takes it. -/
theorem decodeObject_insert (read : d.decodeObject path target (.object members) = .ok x)
    (role : x.cls.memberRole key = .undeclared)
    (reads : d.readExtensions (path.member key) value = .ok values)
    (absent : ∀ m ∈ members, m.1 ≠ key) :
    d.decodeObject path target (.object (Members.insert members key value)) =
      .ok (x.put (.extension key values)) := by
  have within := length_le_of_decodeObject read
  have type : Members.get? (Members.insert members key value) "@type" =
      Members.get? members "@type" := by
    rw [Members.get?_insert, if_neg]
    exact Ne.symm (NodeClass.memberRole_eq_undeclared_iff.mp role).1.1
  have added {c : NodeClass} {type : String}
      (read : d.decodeMembers path members (.ofType c type) = .ok x) :
      d.decodeMembers path (Members.insert members key value) (.ofType c type) =
        .ok (x.put (.extension key values)) := by
    obtain ⟨rfl, -⟩ := typed_of_decodeMembers read
    rw [decodeMembers_insert (Object.shaped_ofType _ _) role reads absent, read]
    rfl
  cases readsObject_of_decodeObject read with
  | only typed only read =>
    rw [decodeObject_of_only within (typeName_eq_ok.mpr (type.trans typed)) only]
    exact added read
  | @searched _ name candidates _ typed first =>
    -- A candidate that failed without the member fails with it.
    have found := (decodeObject_of_firstOf within (typeName_eq_ok.mpr typed) first).mp read
    obtain ⟨before, c, after, rfl, here, failed⟩ := List.findSome?_eq_some_iff.mp found
    refine (decodeObject_of_firstOf within (typeName_eq_ok.mpr (type.trans typed)) first).mpr
      (List.findSome?_eq_some_iff.mpr ⟨before, c, after, rfl, ?_, fun other among => ?_⟩)
    · exact Outcome.toOption_eq_some.mpr (added (Outcome.toOption_eq_some.mp here))
    · refine Option.eq_none_iff_forall_ne_some.mpr fun y reads => ?_
      obtain ⟨z, reads⟩ := exists_decodeMembers_of_insert (Object.shaped_ofType other name) absent
        ⟨y, Outcome.toOption_eq_some.mp reads⟩
      have failed := failed other among
      rw [reads] at failed
      cases failed

/-- An object that was just made is read again, if its type name is that of its class and of no
other. -/
theorem decodeObject_toJson_of_create {name : String} (made : d.registry.create name = .ok o)
    (named : d.registry.get? o.cls.typeName = some o.cls)
    (fits : ∀ t, target = some t → o.cls.isSubclassOf t.iri = true)
    (within : path.length ≤ d.maxDepth) :
    d.decodeObject path target o.toJson = .ok (.ofType o.cls o.cls.typeName) := by
  obtain ⟨-, concrete, blank⟩ := Registry.create_eq_ok_iff.mp made
  have written : o.toJson = .object [("@type", .string o.cls.typeName)] := by
    have unset : ∀ slot ∈ o.cls.layout.map Slot.empty, slot.isSet = false :=
      List.forall_mem_map.mpr fun p _ => Slot.isSet_empty p
    rw [blank, Object.toJson, Object.encode_eq]
    show Json.object (encodeExtensions [] (encodeSlots _ _ _ []).1 _).1 = _
    rw [Object.blank, encodeSlots_of_unset unset]
    rfl
  have chosen : Registry.Chosen d.registry False target o.cls.typeName o.cls :=
    .named named fits concrete
  have only := (choose_of_chosen path chosen).resolve_right fun search => search.1
  rw [written, decodeObject_of_only within (typeName_eq_ok.mpr rfl) only, decodeMembers_cons
    (Object.shaped_ofType _ _), readMember_eq_ok.mpr (.type (NodeClass.memberRole_type _))]
  rfl

/-- An extensible class takes a member with a free key. When an object of it is read again without
the member, it is read again with the member too, and beside what was read without it there are the
values with a text in the place of each IRI: the same values if and only if there is no IRI in them.
An object that was just made is read again without the member, if its type name is that of its class
and of no other. -/
theorem reread_setExtension (d : Decoder) (extensible : o.cls.isExtensible = true)
    (unreserved : o.cls.Unreserved key) (undeclared : ∀ p ∈ o.cls.layout, key ∉ p.keys)
    (sorted : Members.Sorted o.extensions) (nonempty : values ≠ [])
    (plain : ∀ value ∈ values, value.Plain True) (path : Path) (target : Option NodeClass) :
    ∃ changed, o.setExtension key values = .ok changed ∧
      (∀ x, d.decodeObject path target (o.deleteExtension key).toJson = .ok x → x.cls = o.cls →
        ∃ y, d.decodeObject path target changed.toJson = .ok y ∧
          y = { x with
            extensions := Members.insert x.extensions key (values.map Extension.reread) } ∧
          y.extension? key = some (values.map Extension.reread) ∧
          (y.extension? key = some values ↔ ∀ value ∈ values, value.Plain False)) ∧
      ((∃ name, d.registry.create name = .ok o) → d.registry.get? o.cls.typeName = some o.cls →
        (∀ t, target = some t → o.cls.isSubclassOf t.iri = true) → path.length ≤ d.maxDepth →
          ∃ x, d.decodeObject path target (o.deleteExtension key).toJson = .ok x ∧
            x.cls = o.cls) := by
  have role : o.cls.memberRole key = .undeclared :=
    NodeClass.memberRole_eq_undeclared_iff.mpr ⟨unreserved, extensible, undeclared⟩
  obtain ⟨items, written, reads⟩ := exists_items_of_each (d := d) fun value among =>
    (plain value among).exists_json d
  refine ⟨_, Object.setExtension_eq extensible sorted nonempty, fun x read same => ?_, ?_⟩
  · have list : d.readExtensions (path.member key) (.list items) =
        .ok (values.map Extension.reread) := reads _ 0
    have there : (x.put (.extension key (values.map Extension.reread))).extension? key =
        some (values.map Extension.reread) :=
      (Members.get?_insert ..).trans (if_pos rfl)
    refine ⟨x.put (.extension key (values.map Extension.reread)), ?_, rfl, there, ?_⟩
    · rw [Object.toJson_put_extension nonempty written]
      exact decodeObject_insert read (same ▸ role) list (Object.ne_of_mem_encode role [])
    · rw [there, Option.some.injEq, map_eq_self_iff]
      exact forall₂_congr fun value among => (plain value among).reread_eq_self_iff
  · rintro ⟨name, made⟩ named fits within
    have bare : o.deleteExtension key = o := by
      rw [(Registry.create_eq_ok_iff.mp made).2.2]
      rfl
    rw [bare]
    exact ⟨_, decodeObject_toJson_of_create made named fits within, rfl⟩

end Decoder

namespace Sample

/-- A tin that can have anything on its label. -/
def tin : ClassDecl where
  iri := "ex:Tin"
  compact := some "Tin"
  nodeKind := none
  idAlias := none
  isAbstract := false
  extensible := some true
  parents := []
  properties := []

/-- A can, which takes the name of a tin and has a number for its maker. -/
def can : ClassDecl :=
  { tin with
    iri := "ex:Can"
    properties := [
      ⟨"maker", "ex:maker", some "maker", .scalar .integer, false, none, none, [], []⟩] }

def tinRegistry : Registry := (Registry.build "" [tin]).toOption.getD ⟨"", [], []⟩

def canRegistry : Registry := (Registry.build "" [tin, can]).toOption.getD ⟨"", [], []⟩

end Sample

/-- The IRI of a maker is read as a text, and where cans have taken the name of tins a text cannot
be read at all. -/
theorem Sample.maker_changed :
    (∃ o changed x, Registry.build "" [Sample.tin] = .ok Sample.tinRegistry ∧
      Sample.tinRegistry.create "ex:Tin" = .ok o ∧ o.cls.memberRole "maker" = .undeclared ∧
        o.setExtension "maker" [.reference (.iri "ex:a")] = .ok changed ∧
          (Decoder.mk Sample.tinRegistry 5).decodeObject .root none changed.toJson = .ok x ∧
            x.extension? "maker" = some [.string "ex:a"]) ∧
      ∃ o changed, Registry.build "" [Sample.tin, Sample.can] = .ok Sample.canRegistry ∧
        Sample.canRegistry.create "ex:Tin" = .ok o ∧ o.cls.memberRole "maker" = .undeclared ∧
          o.setExtension "maker" [.string "a"] = .ok changed ∧
            (Decoder.mk Sample.canRegistry 5).decodeObject .root none changed.toJson =
              failAt (Path.root.member "maker") (.expectedInteger "list") :=
  ⟨⟨_, _, _, rfl, rfl, rfl, rfl, rfl, rfl⟩, _, _, rfl, rfl, rfl, rfl, rfl⟩

/-- The label of a tin is read again, with texts for the IRIs in it. -/
theorem Sample.label_reread : ∃ o changed x, Sample.tinRegistry.create "Tin" = .ok o ∧
    o.setExtension "label" [.string "a", .list [.integer 5, .reference (.iri "ex:b")]] =
        .ok changed ∧
      (Decoder.mk Sample.tinRegistry 5).decodeObject .root none changed.toJson = .ok x ∧
        x.extension? "label" = some [.string "a", .list [.integer 5, .string "ex:b"]] := by
  obtain ⟨o, made, extensible, unreserved, undeclared, empty, named⟩ : ∃ o,
      Sample.tinRegistry.create "Tin" = .ok o ∧ o.cls.isExtensible = true ∧
        o.cls.Unreserved "label" ∧ (∀ p ∈ o.cls.layout, "label" ∉ p.keys) ∧ o.extensions = [] ∧
          Sample.tinRegistry.get? o.cls.typeName = some o.cls :=
    ⟨_, rfl, rfl, ⟨by decide, by decide, by decide⟩, by decide, rfl, rfl⟩
  have plain : ∀ value ∈ [.string "a", .list [.integer 5, .reference (.iri "ex:b")]],
      Extension.Plain True value := by
    simp only [List.forall_mem_cons]
    refine ⟨.string _, .list ?_, nofun⟩
    simp only [List.forall_mem_cons]
    exact ⟨.integer _, .iri _ trivial, nofun⟩
  have sorted : Members.Sorted o.extensions := empty ▸ Members.sorted_nil
  obtain ⟨changed, stored, rereads, bare⟩ :=
    Decoder.reread_setExtension ⟨Sample.tinRegistry, 5⟩ extensible unreserved undeclared sorted
      (by simp) plain .root none
  obtain ⟨x, read, cls⟩ := bare ⟨"Tin", made⟩ named nofun (by decide)
  obtain ⟨y, read, -, there, -⟩ := rereads x read cls
  exact ⟨o, changed, y, made, stored, read, there⟩

end ShapedGraph

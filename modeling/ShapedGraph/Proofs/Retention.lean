import ShapedGraph.Proofs.Apart
import ShapedGraph.Proofs.Choice

/-! What is kept of the members of a JSON object. Each of them goes to a place of its own in the
object that is read, except that a property which is written with both of its keys has only one:
there the later key wins, and what the earlier one held is lost. -/

namespace ShapedGraph

/-- A property has no third key. -/
theorem PropertyDecl.eq_of_mem_keys {p : PropertyDecl} {first second third : String}
    (one : first ∈ p.keys) (two : second ∈ p.keys) (three : third ∈ p.keys) :
    first = second ∨ first = third ∨ second = third := by
  simp only [keys, List.mem_cons, Option.mem_toList] at one two three
  grind

namespace Decoder

variable {d : Decoder} {path : Path} {o : Object} {key : String} {value : Json}
  {members : List (String × Json)}

/-- An object holds what a member of the JSON object stands for: its identifier, the content of a
property, or the values of a member that is not declared. -/
structure Keeps (d : Decoder) (path : Path) (o : Object) (key : String) (value : Json) : Prop where
  id : key = o.cls.idKey → ∃ text, value = .string text ∧ o.id = some text
  slot : ∀ (place : Nat) (p : Property), o.cls.layout[place]? = some p → key ∈ p.keys →
    ∃ slot, d.readSlot p (path.member key) value = .ok slot ∧ o.slots[place]? = some slot
  extension : key ≠ o.cls.idKey → (∀ p ∈ o.cls.layout, key ∉ p.keys) →
    ∃ values, d.readExtensions (path.member key) value = .ok values ∧
      Members.get? o.extensions key = some values

/-- What a member stands for is the part that it is read to. -/
theorem keeps_iff_has {part : Part} (distinct : d.registry.KeysDistinct)
    (registered : o.cls ∈ d.registry.classes) (notType : key ≠ "@type")
    (reads : d.ReadsMember path o.cls key value part) :
    d.Keeps path o key value ↔ o.Has part := by
  cases reads with
  | type role => exact absurd (NodeClass.Means.of_memberRole role) notType
  | @id text role read =>
    obtain ⟨-, same⟩ := NodeClass.memberRole_eq_id_iff.mp role
    obtain ⟨rfl, -⟩ := decodeId_eq_ok.mp read
    constructor
    · intro keeps
      obtain ⟨text', written, has⟩ := keeps.id same
      cases written
      exact has
    · intro has
      refine ⟨fun _ => ⟨text, rfl, has⟩, fun place p there written => ?_, fun other => ?_⟩
      · exact absurd same (distinct.unreserved registered (List.mem_of_getElem? there) written).2.1
      · exact absurd same other
  | @slot place p slot role there read =>
    obtain ⟨⟨-, notIdKey, -⟩, p', stands⟩ := NodeClass.memberRole_eq_declared_iff.mp role
    cases stands.there.symm.trans there
    have reads := readSlot_eq_ok.mpr read
    constructor
    · intro keeps
      obtain ⟨slot', reads', has⟩ := keeps.slot place p there stands.written
      cases reads'.symm.trans reads
      exact has
    · intro has
      refine ⟨fun same => absurd same notIdKey, fun other q there' written => ?_,
        fun _ undeclared => ?_⟩
      · obtain rfl := distinct.place_unique registered there' there written stands.written
        cases there'.symm.trans there
        exact ⟨slot, reads, has⟩
      · exact absurd stands.written (undeclared p (List.mem_of_getElem? there))
  | @extension values role read =>
    obtain ⟨⟨-, notIdKey, -⟩, -, undeclared⟩ := NodeClass.memberRole_eq_undeclared_iff.mp role
    constructor
    · intro keeps
      obtain ⟨values', reads', has⟩ := keeps.extension notIdKey undeclared
      cases reads'.symm.trans read
      exact has
    · intro has
      refine ⟨fun same => absurd same notIdKey, fun place p there written => ?_,
        fun _ _ => ⟨values, read, has⟩⟩
      exact absurd written (undeclared p (List.mem_of_getElem? there))

/-- Around one member, the others are read before it and after it. -/
theorem exists_parts_behind {front back : List (String × Json)} {o' : Object} (shaped : o.Shaped)
    (read : d.decodeMembers path (front ++ (key, value) :: back) o = .ok o') :
    ∃ (before : Object) (part : Part) (behind : List Part), before.cls = o.cls ∧ before.Shaped ∧
      d.readMember path o.cls key value = .ok part ∧
        back.map (fun m => d.readMember path o.cls m.1 m.2) = behind.map .ok ∧
          behind.foldl Object.put (before.put part) = o' := by
  induction front generalizing o with
  | nil =>
    rw [List.nil_append, decodeMembers_cons shaped] at read
    obtain ⟨part, first, read⟩ := Outcome.bind_eq_ok.mp read
    obtain ⟨behind, reads, made⟩ :=
      (decodeMembers_eq_ok (shaped_put rfl shaped (readMember_eq_ok.mp first))).mp read
    rw [Object.put_cls] at reads
    exact ⟨o, part, behind, rfl, shaped, first, reads, made⟩
  | cons m front ih =>
    obtain ⟨key', value'⟩ := m
    rw [List.cons_append, decodeMembers_cons shaped] at read
    obtain ⟨part', first, read⟩ := Outcome.bind_eq_ok.mp read
    obtain ⟨before, part, behind, cls, shaped', here, reads, made⟩ :=
      ih (shaped_put rfl shaped (readMember_eq_ok.mp first)) read
    rw [Object.put_cls] at cls here reads
    exact ⟨before, part, behind, cls, shaped', here, reads, made⟩

/-- The later members of the properties that a key belongs to read as this one does. -/
def Unchanged (d : Decoder) (path : Path) (cls : NodeClass) (members : List (String × Json))
    (key : String) (value : Json) : Prop :=
  ∀ p ∈ cls.layout, key ∈ p.keys → ∀ other value', (other, value') ∈ members → other ∈ p.keys →
    key < other → d.readSlot p (path.member other) value' = d.readSlot p (path.member key) value

/-- What a member is read to stays if no later one changes it. -/
theorem exists_has_of_unchanged {type : String} (distinct : d.registry.KeysDistinct)
    (registered : o.cls ∈ d.registry.classes) (sorted : Members.Sorted members)
    (read : d.decodeMembers path members (.ofType o.cls type) = .ok o)
    (among : (key, value) ∈ members) (unchanged : d.Unchanged path o.cls members key value) :
    ∃ part, d.readMember path o.cls key value = .ok part ∧ o.Has part := by
  obtain ⟨front, back, rfl⟩ := List.append_of_mem among
  obtain ⟨before, part, behind, cls, shaped, here, reads, made⟩ :=
    exists_parts_behind (Object.shaped_ofType o.cls type) read
  replace here : d.readMember path o.cls key value = .ok part := here
  replace cls : before.cls = o.cls := cls
  refine ⟨part, here, made ▸ Object.Has.foldl_put (Object.has_put ?_) fun part' among' => ?_⟩
  · -- The slot that the member is read to has a place in the object.
    rintro place slot rfl
    cases readMember_eq_ok.mp here with
    | slot _ there =>
      rw [shaped.length, cls]
      exact (List.getElem?_eq_some_iff.mp there).1
  · have brought : Except.ok part' ∈ behind.map (Except.ok (ε := DecodeError)) :=
      List.mem_map_of_mem among'
    rw [← reads] at brought
    obtain ⟨⟨key', value'⟩, later, here'⟩ := List.mem_map.mp brought
    replace here' : d.readMember path o.cls key' value' = .ok part' := here'
    have less : key < key' :=
      (List.pairwise_cons.mp (List.pairwise_append.mp sorted).2.1).1 _ later
    by_cases unshared : ∀ p ∈ o.cls.layout, key ∈ p.keys → key' ∉ p.keys
    · exact .inl ((readMember_eq_ok.mp here).apart (readMember_eq_ok.mp here')
        ⟨String.ne_of_lt less, unshared⟩)
    · right
      simp only [not_forall, not_not] at unshared
      obtain ⟨p, inLayout, written, written'⟩ := unshared
      obtain ⟨place, there⟩ := List.mem_iff_getElem?.mp inLayout
      have role := distinct.memberRole_of_mem_keys registered there written
      have role' := distinct.memberRole_of_mem_keys registered there written'
      have alike := unchanged p inLayout written key' value'
        (List.mem_append_right _ (List.mem_cons_of_mem _ later)) written' less
      simp only [readMember, role, role', there, alike] at here here'
      exact Except.ok.inj (here'.symm.trans here)

/-- A member is kept exactly if no later spelling of its property is read to something else. -/
theorem keeps_iff_unchanged {target : Option NodeClass} {type : String} {cls : NodeClass}
    (distinct : d.registry.KeysDistinct) (sorted : Members.Sorted members)
    (typed : Members.get? members "@type" = some (.string type))
    (known : d.registry.get? type = some cls)
    (read : d.decodeObject path target (.object members) = .ok o) :
    o.cls = cls ∧ ∀ key value, (key, value) ∈ members → key ≠ "@type" →
      (d.Keeps path o key value ↔ d.Unchanged path cls members key value) := by
  have byClass : d.decodeMembers path members (.ofType cls type) = .ok o := by
    cases readsObject_of_decodeObject read with
    | only typed' only read =>
      cases typed'.symm.trans typed
      have chosen : Registry.Chosen d.registry True target type _ := chosen_of_only only
      rwa [chosen.eq_of_settles (.inl known)] at read
    | searched typed' first among =>
      cases typed'.symm.trans typed
      cases (found_of_firstOf first among).1.symm.trans known
  obtain ⟨rfl, -⟩ := typed_of_decodeMembers byClass
  have registered := Registry.mem_of_get? known
  refine ⟨rfl, fun key value among notType => ⟨fun keeps => ?_, fun unchanged => ?_⟩⟩
  · intro p inLayout written other value' among' written' less
    obtain ⟨place, there⟩ := List.mem_iff_getElem?.mp inLayout
    -- No key of the property is left for a member behind the other one.
    have last : d.Unchanged path o.cls members other value' := by
      intro q inLayout' written'' third value'' _ third' less'
      obtain ⟨place', there'⟩ := List.mem_iff_getElem?.mp inLayout'
      obtain rfl := distinct.place_unique registered there there' written' written''
      cases there.symm.trans there'
      rcases PropertyDecl.eq_of_mem_keys written written' third' with same | same | same
      · exact absurd same (String.ne_of_lt less)
      · exact absurd same (String.ne_of_lt (String.lt_trans less less'))
      · exact absurd same (String.ne_of_lt less')
    obtain ⟨part, reads, has⟩ :=
      exists_has_of_unchanged distinct registered sorted byClass among' last
    have notType' := (distinct.unreserved registered inLayout written').1
    have keeps' := (keeps_iff_has distinct registered notType' (readMember_eq_ok.mp reads)).mpr has
    obtain ⟨slot, read, has⟩ := keeps.slot place p there written
    obtain ⟨slot', read', has'⟩ := keeps'.slot place p there written'
    cases has.symm.trans has'
    exact read'.trans read.symm
  · obtain ⟨part, reads, has⟩ :=
      exists_has_of_unchanged distinct registered sorted byClass among unchanged
    exact (keeps_iff_has distinct registered notType (readMember_eq_ok.mp reads)).mpr has

end Decoder

namespace Sample

/-- A poster has a title, and may say more. -/
def poster : ClassDecl where
  iri := "ex:Poster"
  compact := some "Poster"
  nodeKind := none
  idAlias := none
  isAbstract := false
  extensible := some true
  parents := []
  properties := [⟨"title", "ex:title", some "title", .scalar .string, false, none, none, [], []⟩]

def posterRegistry : Registry := (Registry.build "" [poster]).toOption.getD ⟨"", [], []⟩

/-- A poster with two titles, one under each key. -/
def overprint : List (String × Json) :=
  [("@type", .string "Poster"), ("ex:title", .string "one"), ("title", .string "two")]

/-- A poster with one title, an identifier and a price. -/
def placard : List (String × Json) :=
  [("@id", .string "ex:1"), ("@type", .string "Poster"), ("ex:title", .string "one"),
    ("price", .integer 5)]

end Sample

/-- Of two titles the first is dropped without a fault. -/
theorem Sample.overprint_drops : ∃ cls o,
    Registry.build "" [Sample.poster] = .ok Sample.posterRegistry ∧
      Sample.posterRegistry.KeysDistinct ∧ Sample.posterRegistry.get? "Poster" = some cls ∧
        (Decoder.mk Sample.posterRegistry 9).decodeObject .root none (.object Sample.overprint) =
          .ok o ∧
        ("ex:title", .string "one") ∈ Sample.overprint ∧
          ¬(Decoder.mk Sample.posterRegistry 9).Keeps .root o "ex:title" (.string "one") := by
  refine ⟨_, _, rfl, by decide, rfl, rfl, .tail _ (.head _), fun keeps => ?_⟩
  obtain ⟨slot, read, held⟩ := keeps.slot 0 _ rfl (.head _)
  cases read
  replace held : some (Slot.scalar (some (.string "two"))) =
      some (.scalar (some (.string "one"))) := held
  simp at held

theorem Sample.placard_kept : ∃ o,
    (Decoder.mk Sample.posterRegistry 9).decodeObject .root none (.object Sample.placard) = .ok o ∧
      ∀ key value, (key, value) ∈ Sample.placard → key ≠ "@type" →
        (Decoder.mk Sample.posterRegistry 9).Keeps .root o key value := by
  obtain ⟨cls, o, known, read, once⟩ : ∃ cls o, Sample.posterRegistry.get? "Poster" = some cls ∧
      (Decoder.mk Sample.posterRegistry 9).decodeObject .root none (.object Sample.placard) =
        .ok o ∧ ∀ p ∈ cls.layout, ∀ m ∈ Sample.placard, m.1 ∈ p.keys → m.1 = "ex:title" :=
    ⟨_, _, rfl, rfl, by decide⟩
  have distinct : (Decoder.mk Sample.posterRegistry 9).registry.KeysDistinct :=
    (by decide : Sample.posterRegistry.KeysDistinct)
  obtain ⟨-, keeps⟩ := Decoder.keeps_iff_unchanged distinct (by decide) rfl known read
  refine ⟨o, read, fun key value among notType => (keeps key value among notType).mpr ?_⟩
  intro p inLayout written other value' among' written' less
  have same := once p inLayout _ among written
  have same' := once p inLayout _ among' written'
  exact absurd (same.trans same'.symm) (String.ne_of_lt less)

end ShapedGraph

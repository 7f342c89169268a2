import ShapedGraph.Proofs.Retention
import ShapedGraph.Proofs.Steps

/-! Access to the properties of an object by the keys of a document. Accessors take the name of a
property or one of its keys, and names come first, while a document is read by keys alone. So an
accessor finds what was read under a key unless the last property that is called like the key is
another one. -/

namespace ShapedGraph

namespace NodeClass

variable {c : NodeClass} {key : String} {place other : Nat} {p q : Property}

/-- The property at a place is the last one in the layout that is called by a name. -/
structure Called (c : NodeClass) (name : String) (place : Nat) (p : Property) : Prop where
  there : c.layout[place]? = some p
  named : p.name = name
  last : ∀ other q, c.layout[other]? = some q → q.name = name → other ≤ place

theorem lastPlace_name_eq_some_iff :
    c.lastPlace (·.name == key) = some place ↔ ∃ p, c.Called key place p := by
  rw [lastPlace_eq_some_iff]
  simp only [beq_iff_eq]
  constructor
  · rintro ⟨p, there, named, last⟩
    exact ⟨p, there, named, last⟩
  · rintro ⟨p, there, named, last⟩
    exact ⟨p, there, named, last⟩

/-- The last property that is called like the key is not the one at this place. -/
def NamedElsewhere (c : NodeClass) (key : String) (place : Nat) : Prop :=
  ∃ other q, c.Called key other q ∧ other ≠ place

theorem namedElsewhere_iff : c.NamedElsewhere key place ↔
    ∃ other, c.lastPlace (·.name == key) = some other ∧ other ≠ place := by
  simp only [lastPlace_name_eq_some_iff, NamedElsewhere]
  grind

/-- A name comes before a key. -/
theorem place_of_called (called : c.Called key place p) : c.place key = some place := by
  rw [NodeClass.place, lastPlace_name_eq_some_iff.mpr ⟨p, called⟩]
  rfl

theorem place_eq_some_iff (written : c.keyPlace key = some place) :
    c.place key = some place ↔ ¬c.NamedElsewhere key place := by
  rw [NodeClass.place, namedElsewhere_iff, written]
  cases named : c.lastPlace (·.name == key) with
  | none => simp
  | some other => simp

end NodeClass

/-! ## Accessors -/

/-- What an accessor answers about a property and its content. -/
inductive Answer.Shows (p : Property) : Slot → Answer → Prop where
  | scalar (value : Option Scalar) : Shows p (.scalar value) (.scalarProperty p value)
  | list (values : List Scalar) : Shows p (.list values) (.listProperty p values)
  | reference (target : Reference) : Shows p (.reference target) (.referenceProperty p target)
  | references (targets : List Reference) :
    Shows p (.references targets) (.referencesProperty p targets)

namespace Object

variable {o changed : Object} {key : String} {place : Nat} {p : Property} {slot : Slot}
  {w : Workspace} {next after : Nat}

/-- Accessors with this key see the property at a place, and change nothing but its content. -/
structure AccessesAt (o : Object) (key : String) (place : Nat) : Prop where
  find : ∃ p slot, o.cls.layout[place]? = some p ∧ o.slots[place]? = some slot ∧
    o.find key = .ok ⟨place, p, slot⟩ ∧
      (∀ accessor answer, o.get key accessor = .ok answer → answer.Shows p slot) ∧
        ∀ path, o.slotAnswer key path = .slot
          ⟨p, slot, slot.check .collect p path (.initial []), slot.visits p path⟩
  set : ∀ w content next changed after,
    o.set w key content next = some (.ok changed, after) → ∃ slot, changed = o.putSlot place slot
  push : ∀ w item next changed after,
    o.push w key item next = some (.ok changed, after) → ∃ slot, changed = o.putSlot place slot
  delete : ∀ accessor changed, o.delete key accessor = .ok changed →
    ∃ slot, changed = o.putSlot place slot
  deleteSlot : ∃ slot, o.deleteSlot key = some (o.putSlot place slot)

section Find

variable (found : o.find key = .ok ⟨place, p, slot⟩)
include found

theorem shows_of_get {accessor : Accessor} {answer : Answer}
    (h : o.get key accessor = .ok answer) : answer.Shows p slot := by
  cases accessor with
  | scalar type =>
    obtain ⟨cell, looked, h⟩ := Outcome.bind_eq_ok.mp h
    cases found.symm.trans (find_of_findScalar looked)
    cases h
    exact .scalar _
  | list type =>
    obtain ⟨cell, looked, h⟩ := Outcome.bind_eq_ok.mp h
    cases found.symm.trans (find_of_findList looked)
    cases h
    exact .list _
  | reference =>
    obtain ⟨cell, looked, h⟩ := Outcome.bind_eq_ok.mp h
    cases found.symm.trans (findReference_iff_find.mp looked)
    cases h
    exact .reference _
  | references =>
    obtain ⟨cell, looked, h⟩ := Outcome.bind_eq_ok.mp h
    cases found.symm.trans (findReferences_iff_find.mp looked)
    cases h
    exact .references _

theorem Refills.exists_putSlot (refills : o.Refills key changed) :
    ∃ slot, changed = o.putSlot place slot := by
  obtain ⟨cell, slot, found', rfl⟩ := refills
  cases found.symm.trans found'
  exact ⟨slot, rfl⟩

end Find

theorem accessesAt_of_place (here : o.cls.place key = some place)
    (there : o.cls.layout[place]? = some p) (holds : o.slots[place]? = some slot) :
    o.AccessesAt key place := by
  have cell : o.cell? key = some ⟨place, p, slot⟩ :=
    cell?_eq_some_iff.mpr ⟨here, getElem?_properties.mpr ⟨there, holds⟩⟩
  have found := find_eq_ok_iff.mpr cell
  refine ⟨⟨p, slot, there, holds, found, fun _ _ => shows_of_get found, fun path => ?_⟩,
    fun _ _ _ _ _ done => (refills_set done).exists_putSlot found,
    fun _ _ _ _ _ done => (refills_push done).exists_putSlot found,
    fun _ _ done => (refills_delete done).exists_putSlot found, ⟨slot.cleared, ?_⟩⟩
  · rw [slotAnswer, cell]
  · rw [deleteSlot, cell]
    rfl

theorem AccessesAt.place_eq (accesses : o.AccessesAt key place) :
    o.cls.place key = some place := by
  obtain ⟨p, slot, -, -, found, -⟩ := accesses.find
  exact (cell?_eq_some_iff.mp (find_eq_ok_iff.mp found)).1

end Object

namespace Decoder

variable {d : Decoder} {path : Path} {target : Option NodeClass} {o : Object} {key : String}
  {value : Json} {front back : List (String × Json)} {place : Nat}

/-- The last member that goes to a property leaves there what it is read to. -/
theorem exists_slot_of_last (role : o.cls.memberRole key = .declared place)
    (last : ∀ m ∈ back, o.cls.memberRole m.1 ≠ .declared place)
    (read : d.decodeObject path target (.object (front ++ (key, value) :: back)) = .ok o) :
    ∃ p slot, o.cls.layout[place]? = some p ∧ o.slots[place]? = some slot ∧
      d.ReadsSlot p (path.member key) value slot := by
  obtain ⟨type, cls, -, read⟩ := exists_class_of_decodeObject read
  obtain ⟨rfl, -⟩ := typed_of_decodeMembers read
  obtain ⟨before, part, behind, same, shaped, here, reads, made⟩ :=
    exists_parts_behind (Object.shaped_ofType o.cls type) read
  replace here := readMember_eq_ok.mp here
  replace same : before.cls = o.cls := same
  cases here with
  | @slot place' p slot role' there slotRead =>
    cases role'.symm.trans role
    have inside : place < before.slots.length := by
      rw [shaped.length, same]
      exact (List.getElem?_eq_some_iff.mp there).1
    have put : (before.put (.slot place slot)).Has (.slot place slot) :=
      Object.has_put fun _ _ same => by cases same; exact inside
    have kept : o.Has (.slot place slot) := by
      rw [← made]
      refine put.foldl_put fun other among => .inl ?_
      obtain ⟨m, later, brought⟩ := exists_member_of_part reads among
      cases readMember_eq_ok.mp brought with
      | type | id | extension => exact trivial
      | slot role'' =>
        rintro rfl
        exact last m later role''
    exact ⟨p, slot, there, kept, slotRead⟩
  | type role' | id role' | extension role' => cases role'.symm.trans role

end Decoder

/-- Where a document is read by a key, an accessor with the key sees the same property exactly if no
other one is the last to be called like the key. If one is, the accessor sees that one. -/
theorem NodeClass.place_eq_keyPlace_iff {c : NodeClass} {key : String} {place : Nat}
    (role : c.memberRole key = .declared place) :
    (c.place key = c.keyPlace key ↔ ¬c.NamedElsewhere key place) ∧
      ∀ (d : Decoder) (path : Path) (target : Option NodeClass) (front back : List (String × Json))
        (value : Json) (o : Object), o.cls = c →
        (∀ m ∈ back, c.memberRole m.1 ≠ .declared place) →
        d.decodeObject path target (.object (front ++ (key, value) :: back)) = .ok o →
          (∃ p slot, c.layout[place]? = some p ∧ o.slots[place]? = some slot ∧
            d.ReadsSlot p (path.member key) value slot) ∧
          (o.AccessesAt key place ↔ ¬c.NamedElsewhere key place) ∧
          ∀ other q, c.Called key other q → o.AccessesAt key other := by
  have written : c.keyPlace key = some place := Means.of_memberRole role
  have agree : c.place key = some place ↔ ¬c.NamedElsewhere key place := place_eq_some_iff written
  refine ⟨written ▸ agree, ?_⟩
  rintro d path target front back value o rfl last read
  have shaped := Decoder.shaped_of_decodeObject read
  have stored := Decoder.exists_slot_of_last role last read
  refine ⟨stored, ?_, fun other q called => ?_⟩
  · obtain ⟨p, slot, there, holds, -⟩ := stored
    rw [← agree]
    exact ⟨Object.AccessesAt.place_eq, fun here => Object.accessesAt_of_place here there holds⟩
  · obtain ⟨slot, holds⟩ := shaped.getElem?_slots called.there
    exact Object.accessesAt_of_place (place_of_called called) called.there holds

namespace Sample

/-- A title card has a title, which is called its label, and a caption, which is written as its
label. -/
def titleCard : ClassDecl where
  iri := "ex:Card"
  compact := some "Card"
  nodeKind := none
  idAlias := none
  isAbstract := false
  extensible := none
  parents := []
  properties :=
    [⟨"label", "ex:title", none, .scalar .string, false, none, none, [], []⟩,
      ⟨"caption", "ex:caption", some "label", .scalar .string, false, none, none, [], []⟩]

def titleCardClass : NodeClass :=
  .ofParents titleCard [] ((Property.compileAll "ex:Card" 0 titleCard.properties).toOption.getD [])

theorem title_reached : titleCardClass.memberRole "ex:title" = .declared 0 ∧
    titleCardClass.place "ex:title" = titleCardClass.keyPlace "ex:title" := by
  have role : titleCardClass.memberRole "ex:title" = .declared 0 := by decide +kernel
  have unnamed : ¬titleCardClass.NamedElsewhere "ex:title" 0 := by
    have none : titleCardClass.lastPlace (·.name == "ex:title") = none := by decide +kernel
    simp [NodeClass.namedElsewhere_iff, none]
  exact ⟨role, (NodeClass.place_eq_keyPlace_iff role).1.mpr unnamed⟩

/-- A document writes the caption of a title card as its label, but by this key an accessor sees the
title. -/
theorem label_misread :
    Registry.build "" [titleCard] = .ok ⟨"", [titleCardClass], [⟨"Card", "ex:Card"⟩]⟩ ∧
    titleCardClass.memberRole "label" = .declared 1 ∧ titleCardClass.keyPlace "label" = some 1 ∧
      titleCardClass.place "label" = some 0 := by
  refine ⟨?_, by decide +kernel, by decide +kernel, by decide +kernel⟩
  decide +kernel

end Sample

end ShapedGraph

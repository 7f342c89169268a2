import ShapedGraph.Object.Basic
import ShapedGraph.Proofs.Members

/-! The parts that the members of an object are read to, each put into its place, and the form that
the slots of an object keep. -/

namespace ShapedGraph

/-- The part of an object that a member is read to. -/
inductive Part where
  | nothing
  | id (text : String)
  | slot (place : Nat) (slot : Slot)
  | extension (key : String) (values : List Extension)

theorem Slot.cleared_empty (p : Property) : (Slot.empty p).cleared = Slot.empty p := by
  rw [Slot.empty]
  split <;> rfl

theorem Slot.isSet_empty (p : Property) : (Slot.empty p).isSet = false := by
  unfold Slot.empty
  split <;> rfl

namespace Object

/-- The object with a part in its place. -/
def put (o : Object) : Part → Object
  | .nothing => o
  | .id text => { o with id := text }
  | .slot place slot => o.putSlot place slot
  | .extension key values => { o with extensions := Members.insert o.extensions key values }

@[simp] theorem put_cls (o : Object) (part : Part) : (o.put part).cls = o.cls := by
  cases part <;> rfl

@[simp] theorem put_observedType (o : Object) (part : Part) :
    (o.put part).observedType = o.observedType := by
  cases part <;> rfl

theorem foldl_put_cls (parts : List Part) (o : Object) :
    (parts.foldl put o).cls = o.cls := by
  induction parts generalizing o with
  | nil => rfl
  | cons part parts ih => rw [List.foldl_cons, ih, put_cls]

theorem foldl_put_observedType (parts : List Part) (o : Object) :
    (parts.foldl put o).observedType = o.observedType := by
  induction parts generalizing o with
  | nil => rfl
  | cons part parts ih => rw [List.foldl_cons, ih, put_observedType]

/-- What a slot holds after parts were put in, it held before or one of them brought. -/
theorem slot_of_foldl_put {parts : List Part} {o : Object} {place : Nat} {slot : Slot}
    (h : (parts.foldl put o).slots[place]? = some slot) :
    o.slots[place]? = some slot ∨ .slot place slot ∈ parts := by
  induction parts generalizing o with
  | nil => exact .inl h
  | cons part parts ih =>
    rcases ih h with first | later
    · cases part with
      | nothing | id | extension => exact .inl first
      | slot other content =>
        replace first : (o.slots.set other content)[place]? = some slot := first
        rw [List.getElem?_set] at first
        split at first
        · rename_i same
          subst same
          split at first
          · cases first
            exact .inr List.mem_cons_self
          · cases first
        · exact .inl first
    · exact .inr (List.mem_cons_of_mem _ later)

/-- What an undeclared member holds after parts were put in, it held before or one of them
brought. -/
theorem extension_of_foldl_put {parts : List Part} {o : Object} {key : String}
    {values : List Extension} (h : (key, values) ∈ (parts.foldl put o).extensions) :
    (key, values) ∈ o.extensions ∨ .extension key values ∈ parts := by
  induction parts generalizing o with
  | nil => exact .inl h
  | cons part parts ih =>
    rcases ih h with first | later
    · cases part with
      | nothing | id | slot => exact .inl first
      | extension other content =>
        rcases Members.mem_insert first with same | first
        · cases same
          exact .inr List.mem_cons_self
        · exact .inl first
    · exact .inr (List.mem_cons_of_mem _ later)

/-- When the parts for an undeclared member all bring the same values, these are found in the end,
unless there is no such part and the member was not there. -/
theorem get?_extensions_foldl_put {parts : List Part} {o : Object} {key : String}
    {values : List Extension} (one : ∀ other, .extension key other ∈ parts → other = values)
    (there : Members.get? o.extensions key = some values ∨ .extension key values ∈ parts) :
    Members.get? (parts.foldl put o).extensions key = some values := by
  induction parts generalizing o with
  | nil => exact there.resolve_right List.not_mem_nil
  | cons part parts ih =>
    refine ih (fun other among => one other (List.mem_cons_of_mem _ among)) ?_
    rcases there with there | among
    · left
      cases part with
      | nothing | id | slot => exact there
      | extension name brought =>
        show Members.get? (Members.insert o.extensions name brought) key = _
        rw [Members.get?_insert]
        split
        · rename_i same
          subst same
          rw [one brought List.mem_cons_self]
        · exact there
    · rcases List.mem_cons.mp among with rfl | among
      · left
        show Members.get? (Members.insert o.extensions key values) key = _
        rw [Members.get?_insert, if_pos rfl]
      · exact .inr among

/-- A run: undeclared members stay in key order while parts are put in. -/
theorem sorted_foldl_put {parts : List Part} {o : Object} (sorted : Members.Sorted o.extensions) :
    Members.Sorted (parts.foldl put o).extensions := by
  induction parts generalizing o with
  | nil => exact sorted
  | cons part parts ih =>
    refine ih ?_
    cases part with
    | nothing | id | slot => exact sorted
    | extension key values => exact Members.sorted_insert sorted key values

/-- Each slot is of the form that its property asks for. -/
def Shaped (o : Object) : Prop := o.slots.map Slot.cleared = o.cls.layout.map Slot.empty

theorem shaped_ofType (cls : NodeClass) (type : String) : (ofType cls type).Shaped := by
  show ((cls.layout.map Slot.empty).map Slot.cleared) = cls.layout.map Slot.empty
  rw [List.map_map]
  exact List.map_congr_left fun p _ => Slot.cleared_empty p

theorem Shaped.length {o : Object} (shaped : o.Shaped) : o.slots.length = o.cls.layout.length := by
  simpa using congrArg List.length shaped

theorem getElem?_properties {o : Object} {place : Nat} {p : Property} {slot : Slot} :
    o.properties[place]? = some (p, slot) ↔
      o.cls.layout[place]? = some p ∧ o.slots[place]? = some slot :=
  List.getElem?_zip_eq_some

theorem Shaped.cleared {o : Object} (shaped : o.Shaped) {place : Nat} {p : Property} {slot : Slot}
    (hp : o.cls.layout[place]? = some p) (hs : o.slots[place]? = some slot) :
    slot.cleared = Slot.empty p := by
  have := congrArg (·[place]?) shaped
  simpa [hp, hs] using this

/-- A place of the layout has a slot. -/
theorem Shaped.getElem?_slots {o : Object} (shaped : o.Shaped) {place : Nat} {p : Property}
    (hp : o.cls.layout[place]? = some p) : ∃ slot, o.slots[place]? = some slot := by
  have : place < o.slots.length := shaped.length ▸ (List.getElem?_eq_some_iff.mp hp).1
  exact ⟨_, List.getElem?_eq_getElem this⟩

/-- A slot has a place in the layout. -/
theorem Shaped.getElem?_layout {o : Object} (shaped : o.Shaped) {place : Nat} {slot : Slot}
    (hs : o.slots[place]? = some slot) : ∃ p, o.cls.layout[place]? = some p := by
  have : place < o.cls.layout.length := shaped.length ▸ (List.getElem?_eq_some_iff.mp hs).1
  exact ⟨_, List.getElem?_eq_getElem this⟩

theorem Shaped.putSlot {o : Object} (shaped : o.Shaped) {place : Nat} {p : Property} {slot : Slot}
    (hp : o.cls.layout[place]? = some p) (fits : slot.cleared = Slot.empty p) :
    (o.putSlot place slot).Shaped := by
  show (o.slots.set place slot).map Slot.cleared = o.cls.layout.map Slot.empty
  rw [List.map_set, shaped, fits]
  refine List.ext_getElem? fun i => ?_
  rw [List.getElem?_set]
  split
  · rename_i same
    subst same
    obtain ⟨inside, rfl⟩ := List.getElem?_eq_some_iff.mp hp
    simp [inside]
  · rfl

end Object

end ShapedGraph

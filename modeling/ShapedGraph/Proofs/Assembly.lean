import ShapedGraph.Proofs.Members
import ShapedGraph.Proofs.Reading

/-! When parts that are put into an object one after the other make a given object: each of them is
a part of that object, and wherever the two differ one of them goes. -/

namespace ShapedGraph

namespace Object

/-- The object has a part already. -/
def Has (o : Object) : Part → Prop
  | .nothing => True
  | .id text => o.id = some text
  | .slot place slot => o.slots[place]? = some slot
  | .extension key values => Members.get? o.extensions key = some values

/-- Wherever an object differs from another, one of the parts goes there. -/
structure Pending (parts : List Part) (o goal : Object) : Prop where
  cls : o.cls = goal.cls
  observedType : o.observedType = goal.observedType
  id : o.id = goal.id ∨ ∃ text, .id text ∈ parts
  length : o.slots.length = goal.slots.length
  slots : ∀ place, o.slots[place]? = goal.slots[place]? ∨ ∃ slot, .slot place slot ∈ parts
  sorted : Members.Sorted o.extensions
  sorted' : Members.Sorted goal.extensions
  extensions : ∀ key, Members.get? o.extensions key = Members.get? goal.extensions key ∨
    ∃ values, .extension key values ∈ parts

variable {part : Part} {parts : List Part} {o goal : Object}

theorem exists_mem_of_cons {α : Type} {f : α → Part} (other : ∀ a, f a ≠ part)
    (h : ∃ a, f a ∈ part :: parts) : ∃ a, f a ∈ parts := by
  obtain ⟨a, h⟩ := h
  exact ⟨a, (List.mem_cons.mp h).resolve_left (other a)⟩

theorem pending_put (pending : Pending (part :: parts) o goal) (has : goal.Has part) :
    Pending parts (o.put part) goal := by
  cases part with
  | nothing =>
    refine { pending with id := ?_, slots := fun place => ?_, extensions := fun key => ?_ }
    · exact pending.id.imp_right (exists_mem_of_cons (by simp))
    · exact (pending.slots place).imp_right (exists_mem_of_cons (by simp))
    · exact (pending.extensions key).imp_right (exists_mem_of_cons (by simp))
  | id text =>
    refine { pending with
      id := .inl has.symm, slots := fun place => ?_, extensions := fun key => ?_ }
    · exact (pending.slots place).imp_right (exists_mem_of_cons (by simp))
    · exact (pending.extensions key).imp_right (exists_mem_of_cons (by simp))
  | slot place slot =>
    refine { pending with
      id := ?_, length := ?_, slots := fun other => ?_, extensions := fun key => ?_ }
    · exact pending.id.imp_right (exists_mem_of_cons (by simp))
    · exact List.length_set.trans pending.length
    · show (o.slots.set place slot)[other]? = _ ∨ _
      by_cases same : place = other
      · subst same
        have inside : place < o.slots.length :=
          pending.length ▸ (List.getElem?_eq_some_iff.mp has).1
        left
        rw [List.getElem?_set_self inside, has]
      · rw [List.getElem?_set_ne same]
        refine (pending.slots other).imp_right (exists_mem_of_cons fun slot' here => ?_)
        cases here
        exact same rfl
    · exact (pending.extensions key).imp_right (exists_mem_of_cons (by simp))
  | extension key values =>
    refine { pending with
      id := ?_, slots := fun place => ?_, extensions := fun other => ?_,
      sorted := Members.sorted_insert pending.sorted key values }
    · exact pending.id.imp_right (exists_mem_of_cons (by simp))
    · exact (pending.slots place).imp_right (exists_mem_of_cons (by simp))
    · show Members.get? (Members.insert o.extensions key values) other = _ ∨ _
      rw [Members.get?_insert]
      by_cases same : other = key
      · subst same
        left
        rw [if_pos rfl, has]
      · rw [if_neg same]
        refine (pending.extensions other).imp_right (exists_mem_of_cons fun values' here => ?_)
        cases here
        exact same rfl

/-- The object that the parts were pending for is what they make. -/
theorem foldl_put_of_pending (pending : Pending parts o goal)
    (has : ∀ part ∈ parts, goal.Has part) : parts.foldl put o = goal := by
  induction parts generalizing o with
  | nil =>
    have id : o.id = goal.id := pending.id.resolve_right nofun
    have slots : o.slots = goal.slots :=
      List.ext_getElem? fun place => (pending.slots place).resolve_right nofun
    have extensions : o.extensions = goal.extensions :=
      Members.eq_of_get? pending.sorted pending.sorted' fun key =>
        (pending.extensions key).resolve_right nofun
    have cls := pending.cls
    have observedType := pending.observedType
    cases o
    cases goal
    simp_all
  | cons part parts ih =>
    exact ih (pending_put pending (has part List.mem_cons_self))
      fun other h => has other (List.mem_cons_of_mem _ h)

end Object

end ShapedGraph

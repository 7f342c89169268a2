import ShapedGraph.Object.Access
import ShapedGraph.Proofs.Outcome
import ShapedGraph.Proofs.Parts

/-! What accessors find and what they change. An accessor finds the property that its key leads to
if this holds what the accessor asks for, and a change that is not refused leaves other content
there and nothing else changed. -/

namespace ShapedGraph.Object

variable {o changed : Object} {key : String}

theorem cell?_eq_some_iff {cell : Cell Slot} : o.cell? key = some cell ↔
    o.cls.place key = some cell.place ∧
      o.properties[cell.place]? = some (cell.property, cell.content) := by
  obtain ⟨place, p, slot⟩ := cell
  constructor
  · intro found
    obtain ⟨other, placed, found⟩ := Option.bind_eq_some_iff.mp found
    obtain ⟨content, there, found⟩ := Option.bind_eq_some_iff.mp found
    cases found
    exact ⟨placed, there⟩
  · rintro ⟨placed, there⟩
    simp only [cell?, placed, there, Option.bind_eq_bind, Option.bind_some]

theorem find_eq_ok_iff {cell : Cell Slot} : o.find key = .ok cell ↔ o.cell? key = some cell := by
  unfold find
  cases o.cell? key <;> simp

theorem find_of_findScalar {type : ScalarType} {cell : Cell (Option Scalar)}
    (found : o.findScalar key type = .ok cell) :
    o.find key = .ok ⟨cell.place, cell.property, .scalar cell.content⟩ := by
  obtain ⟨whole, there, found⟩ := Outcome.bind_eq_ok.mp found
  split at found
  · rename_i content
    split at found
    · cases found
      rw [there, ← content]
    · cases found
  · cases found

theorem find_of_findList {type : ScalarType} {cell : Cell (List Scalar)}
    (found : o.findList key type = .ok cell) :
    o.find key = .ok ⟨cell.place, cell.property, .list cell.content⟩ := by
  obtain ⟨whole, there, found⟩ := Outcome.bind_eq_ok.mp found
  split at found
  · rename_i content
    split at found
    · cases found
      rw [there, ← content]
    · cases found
  · cases found

theorem findReference_iff_find {cell : Cell Reference} : o.findReference key = .ok cell ↔
    o.find key = .ok ⟨cell.place, cell.property, .reference cell.content⟩ := by
  constructor
  · intro found
    obtain ⟨whole, there, found⟩ := Outcome.bind_eq_ok.mp found
    split at found
    · rename_i content
      cases found
      rw [there, ← content]
    · cases found
  · exact fun there => Outcome.bind_eq_ok.mpr ⟨_, there, rfl⟩

theorem findReferences_iff_find {cell : Cell (List Reference)} :
    o.findReferences key = .ok cell ↔
      o.find key = .ok ⟨cell.place, cell.property, .references cell.content⟩ := by
  constructor
  · intro found
    obtain ⟨whole, there, found⟩ := Outcome.bind_eq_ok.mp found
    split at found
    · rename_i content
      cases found
      rw [there, ← content]
    · cases found
  · exact fun there => Outcome.bind_eq_ok.mpr ⟨_, there, rfl⟩

/-- The object with other content in the place that a key leads to. -/
def Refills (o : Object) (key : String) (changed : Object) : Prop :=
  ∃ cell slot, o.find key = .ok cell ∧ changed = o.putSlot cell.place slot

theorem refills_setScalar {value : Scalar} (done : o.setScalar key value = .ok changed) :
    o.Refills key changed := by
  obtain ⟨cell, found, done⟩ := Outcome.bind_eq_ok.mp done
  obtain ⟨field, -, done⟩ := Outcome.bind_eq_ok.mp done
  cases done
  exact ⟨_, _, find_of_findScalar found, rfl⟩

theorem refills_setList {type : ScalarType} {values : List Scalar}
    (done : o.setList key type values = .ok changed) : o.Refills key changed := by
  obtain ⟨cell, found, done⟩ := Outcome.bind_eq_ok.mp done
  obtain ⟨field, -, done⟩ := Outcome.bind_eq_ok.mp done
  cases done
  exact ⟨_, _, find_of_findList found, rfl⟩

theorem refills_pushScalar {value : Scalar} (done : o.pushScalar key value = .ok changed) :
    o.Refills key changed := by
  obtain ⟨cell, found, done⟩ := Outcome.bind_eq_ok.mp done
  obtain ⟨field, -, done⟩ := Outcome.bind_eq_ok.mp done
  cases done
  exact ⟨_, _, find_of_findList found, rfl⟩

theorem refills_setReference {target : Reference}
    (done : o.setReference key target = .ok changed) : o.Refills key changed := by
  obtain ⟨cell, found, done⟩ := Outcome.bind_eq_ok.mp done
  split at done
  · cases done
  · cases done
    exact ⟨_, _, findReference_iff_find.mp found, rfl⟩

theorem refills_setReferences {targets : List Reference}
    (done : o.setReferences key targets = .ok changed) : o.Refills key changed := by
  obtain ⟨cell, found, done⟩ := Outcome.bind_eq_ok.mp done
  split at done
  · cases done
  · cases done
    exact ⟨_, _, findReferences_iff_find.mp found, rfl⟩

theorem refills_pushReference {target : Reference}
    (done : o.pushReference key target = .ok changed) : o.Refills key changed := by
  obtain ⟨cell, found, done⟩ := Outcome.bind_eq_ok.mp done
  split at done
  · cases done
  · cases done
    exact ⟨_, _, findReferences_iff_find.mp found, rfl⟩

theorem refills_deleteScalar {type : ScalarType}
    (done : o.deleteScalar key type = .ok changed) : o.Refills key changed := by
  obtain ⟨cell, found, done⟩ := Outcome.bind_eq_ok.mp done
  cases done
  exact ⟨_, _, find_of_findScalar found, rfl⟩

theorem refills_deleteList {type : ScalarType} (done : o.deleteList key type = .ok changed) :
    o.Refills key changed := by
  obtain ⟨cell, found, done⟩ := Outcome.bind_eq_ok.mp done
  cases done
  exact ⟨_, _, find_of_findList found, rfl⟩

theorem refills_deleteReference (done : o.deleteReference key = .ok changed) :
    o.Refills key changed := by
  obtain ⟨cell, found, done⟩ := Outcome.bind_eq_ok.mp done
  cases done
  exact ⟨_, _, findReference_iff_find.mp found, rfl⟩

theorem refills_deleteReferences (done : o.deleteReferences key = .ok changed) :
    o.Refills key changed := by
  obtain ⟨cell, found, done⟩ := Outcome.bind_eq_ok.mp done
  cases done
  exact ⟨_, _, findReferences_iff_find.mp found, rfl⟩

theorem refills_deleteSlot (done : o.deleteSlot key = some changed) : o.Refills key changed := by
  obtain ⟨cell, found, done⟩ := Option.bind_eq_some_iff.mp done
  cases done
  exact ⟨_, _, find_eq_ok_iff.mpr found, rfl⟩

end ShapedGraph.Object

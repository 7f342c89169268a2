import ShapedGraph.Proofs.Encoding
import ShapedGraph.Proofs.Mentions

/-! An account of what has been written: the mentions of objects in the order of writing, each with
whether the object is written in full. The handles that have been met decide it. -/

namespace ShapedGraph

/-- Mentions in the order of writing; the object is written in full or its identifier is. -/
abbrev Log := List (Mention × Bool)

/-- Writing goes from some handles that have been met to others by way of a log. -/
inductive Tally : Seen → Log → Seen → Prop where
  | done (seen : Seen) : Tally seen [] seen
  | short {seen after : Seen} {m : Mention} {log : Log} {id : String}
    (met : seen.meets m.handle = true) (named : m.object.id = some id)
    (rest : Tally seen log after) : Tally seen ((m, false) :: log) after
  | full {seen after : Seen} {m : Mention} {log : Log}
    (new : seen.meets m.handle = false ∨ m.object.id = none)
    (rest : Tally (seen.insert m.handle) log after) : Tally seen ((m, true) :: log) after

def Log.under (place : List Segment) (log : Log) : Log :=
  log.map fun (m, full) => (m.under place, full)

theorem Log.mem_under {place : List Segment} {log : Log} {m : Mention} {full : Bool} :
    (m, full) ∈ log.under place ↔ ∃ inner, (inner, full) ∈ log ∧ m = inner.under place := by
  simp only [Log.under, List.mem_map, Prod.exists, Prod.mk.injEq]
  constructor
  · rintro ⟨inner, _, there, rfl, rfl⟩
    exact ⟨inner, there, rfl⟩
  · rintro ⟨inner, there, rfl⟩
    exact ⟨inner, full, there, rfl, rfl⟩

theorem Seen.meets_iff {seen : Seen} {handle : Option Nat} :
    seen.meets handle = true ↔ ∃ h, handle = some h ∧ h ∈ seen := by
  cases handle <;> simp [Seen.meets]

theorem Seen.mem_insert {seen : Seen} {handle : Option Nat} {h : Nat} :
    h ∈ seen.insert handle ↔ handle = some h ∨ h ∈ seen := by
  cases handle <;> simp [Seen.insert, eq_comm]

namespace Tally

variable {seen middle after : Seen} {log more : Log} {m : Mention} {handle : Nat}

theorem append (first : Tally seen log middle) (second : Tally middle more after) :
    Tally seen (log ++ more) after := by
  induction first with
  | done => exact second
  | short met named _ ih => exact .short met named (ih second)
  | full new _ ih => exact .full new (ih second)

theorem under (tally : Tally seen log after) (place : List Segment) :
    Tally seen (log.under place) after := by
  induction tally with
  | done => exact .done _
  | short met named _ ih => exact .short met named ih
  | full new _ ih => exact .full new ih

/-- Where only the identifier is written, the object has one and a handle. -/
theorem of_short (tally : Tally seen log after) (there : (m, false) ∈ log) :
    m.object.id ≠ none ∧ m.handle ≠ none := by
  induction tally with
  | done => cases there
  | short met named _ ih =>
    rcases List.mem_cons.mp there with same | there
    · cases same
      obtain ⟨h, labelled, -⟩ := Seen.meets_iff.mp met
      exact ⟨by simp [named], by simp [labelled]⟩
    · exact ih there
  | full _ _ ih =>
    rcases List.mem_cons.mp there with same | there
    · cases same
    · exact ih there

/-- An object with an identifier that has been met is not written in full again. -/
theorem not_full_of_met (tally : Tally seen log after) (met : handle ∈ seen)
    (labelled : m.handle = some handle) (named : m.object.id ≠ none) : (m, true) ∉ log := by
  induction tally with
  | done => exact nofun
  | short _ _ _ ih =>
    intro there
    rcases List.mem_cons.mp there with same | there
    · cases same
    · exact ih met there
  | full new _ ih =>
    intro there
    rcases List.mem_cons.mp there with same | there
    · cases same
      rcases new with new | unnamed
      · rw [Seen.meets_iff.mpr ⟨handle, labelled, met⟩] at new
        cases new
      · exact named unnamed
    · exact ih (Seen.mem_insert.mpr (.inr met)) there

/-- An object that has not been met is written in full if it is written at all. -/
theorem exists_full (tally : Tally seen log after) (new : handle ∉ seen) {full : Bool}
    (there : (m, full) ∈ log) (labelled : m.handle = some handle) :
    ∃ first, (first, true) ∈ log ∧ first.handle = some handle := by
  induction tally with
  | done => cases there
  | @short _ _ other _ _ met _ _ ih =>
    rcases List.mem_cons.mp there with same | there
    · cases same
      obtain ⟨h, labelled', among⟩ := Seen.meets_iff.mp met
      cases labelled.symm.trans labelled'
      exact absurd among new
    · obtain ⟨first, among, same⟩ := ih new there
      exact ⟨first, List.mem_cons_of_mem _ among, same⟩
  | @full seen _ other _ _ _ ih =>
    by_cases same : other.handle = some handle
    · exact ⟨other, List.mem_cons_self, same⟩
    · rcases List.mem_cons.mp there with here | there
      · cases here
        exact absurd labelled same
      · have still : handle ∉ seen.insert other.handle := by
          rw [Seen.mem_insert]
          exact fun found => found.elim same new
        obtain ⟨first, among, same⟩ := ih still there
        exact ⟨first, List.mem_cons_of_mem _ among, same⟩

/-- An object with an identifier is written in full in one place. -/
theorem full_unique (tally : Tally seen log after) {first other : Mention}
    (there : (first, true) ∈ log) (there' : (other, true) ∈ log)
    (labelled : first.handle = some handle) (labelled' : other.handle = some handle)
    (named : first.object.id ≠ none) (named' : other.object.id ≠ none) : first = other := by
  induction tally with
  | done => cases there
  | short _ _ _ ih =>
    rcases List.mem_cons.mp there with same | there
    · cases same
    · rcases List.mem_cons.mp there' with same | there'
      · cases same
      · exact ih there there'
  | @full seen _ m _ _ rest ih =>
    have later : m.handle = some handle → handle ∈ seen.insert m.handle := fun same =>
      Seen.mem_insert.mpr (.inl same)
    rcases List.mem_cons.mp there with same | among
    · cases same
      rcases List.mem_cons.mp there' with same | among'
      · cases same
        rfl
      · exact absurd among' (rest.not_full_of_met (later labelled) labelled' named')
    · rcases List.mem_cons.mp there' with same | there'
      · cases same
        exact absurd among (rest.not_full_of_met (later labelled') labelled named)
      · exact ih among there'

end Tally

end ShapedGraph

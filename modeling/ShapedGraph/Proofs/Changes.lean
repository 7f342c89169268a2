import ShapedGraph.Proofs.Steps

/-! What a step can do to the object it is taken on. Whatever the step, at most one thing in the
object is replaced, and its class stays as it is. -/

namespace ShapedGraph

namespace Object

variable {o changed : Object} {w : Workspace} {step : ObjectStep} {next after : Nat}

/-- What a step can do to an object: something in it is replaced, but never its class, and the type
name and the undeclared members only by the steps that are there for them. -/
inductive Changes (o : Object) : ObjectStep → Object → Prop where
  | nothing {step : ObjectStep} : Changes o step o
  | slot {step : ObjectStep} (place : Nat) (slot : Slot) : Changes o step (o.putSlot place slot)
  | id {step : ObjectStep} (id : Option String) : Changes o step { o with id }
  | setExtension (key : String) (terms : List ExtensionTerm) (values : List Extension) :
    Changes o (.setExtension key terms) { o with
      extensions := if values.isEmpty then Members.erase o.extensions key
        else Members.insert o.extensions key values }
  | deleteExtension (key : String) : Changes o (.deleteExtension key) (o.deleteExtension key)
  | setType (type : String) : Changes o (.setType type) (o.setType type)
  | clearType : Changes o .clearType o.clearType

namespace Changes

theorem change {result : Except AccessError Object}
    (each : ∀ changed, result = .ok changed → o.Changes step changed) :
    o.Changes step (o.change result).2 := by
  cases result with
  | ok changed => exact each changed rfl
  | error => exact .nothing

theorem of_refills {key : String} (refills : o.Refills key changed) : o.Changes step changed := by
  obtain ⟨cell, slot, -, rfl⟩ := refills
  exact .slot cell.place slot

theorem of_set {key : String} {content : Content} {result : Except AccessError Object}
    (h : o.set w key content next = some (result, after)) :
    o.Changes step (o.change result).2 := by
  refine change fun changed done => ?_
  subst done
  exact of_refills (refills_set h)

theorem of_push {key : String} {item : Item} {result : Except AccessError Object}
    (h : o.push w key item next = some (result, after)) : o.Changes step (o.change result).2 := by
  refine change fun changed done => ?_
  subst done
  exact of_refills (refills_push h)

theorem of_setId {id : String}
    (done : (o.setId id).mapError AccessError.validation = .ok changed) :
    o.Changes step changed := by
  unfold Object.setId at done
  split at done
  · cases done
  · cases done
    exact .id _

theorem of_setExtension {key : String} {terms : List ExtensionTerm} {values : List Extension}
    (done : o.setExtension key values = .ok changed) :
    o.Changes (.setExtension key terms) changed := by
  unfold Object.setExtension at done
  split at done
  · cases done
    exact .setExtension key terms values
  · cases done

theorem putReference (key : String) (position : Option Nat) (target : Reference) :
    o.Changes step (o.putReference key position target) := by
  unfold Object.putReference
  split
  · exact .slot ..
  · exact .slot ..
  · exact .nothing

theorem cls (changes : o.Changes step changed) : changed.cls = o.cls := by
  cases changes <;> rfl

/-- A step leaves the undeclared members alone, except for one that it gives values to. -/
theorem mem_extensions (changes : o.Changes step changed) {key : String}
    {values : List Extension} (there : (key, values) ∈ changed.extensions) :
    (key, values) ∈ o.extensions ∨ values ≠ [] ∧ ∃ terms, step = .setExtension key terms := by
  cases changes with
  | nothing | slot | id | setType | clearType => exact .inl there
  | deleteExtension => exact .inl (List.mem_filter.mp there).1
  | setExtension name terms given =>
    by_cases empty : given.isEmpty = true
    · rw [if_pos empty] at there
      exact .inl (List.mem_filter.mp there).1
    · rw [if_neg empty] at there
      rcases Members.mem_insert there with same | there
      · cases same
        exact .inr ⟨fun none => empty (List.isEmpty_iff.mpr none), terms, rfl⟩
      · exact .inl there

/-- Every step does one of these things. -/
theorem of_run {result : Answer × Object} (h : o.run w step next = some (result, after)) :
    o.Changes step result.2 := by
  cases step with
  | get =>
    obtain ⟨rfl, -⟩ := Naming.pure_eq_some.mp h
    rw [snd_look]
    exact .nothing
  | set =>
    obtain ⟨changed, done, rfl⟩ := Naming.map_eq_some.mp h
    exact of_set done
  | push =>
    obtain ⟨changed, done, rfl⟩ := Naming.map_eq_some.mp h
    exact of_push done
  | delete =>
    obtain ⟨rfl, -⟩ := Naming.pure_eq_some.mp h
    exact change fun _ done => of_refills (refills_delete done)
  | setId =>
    obtain ⟨rfl, -⟩ := Naming.pure_eq_some.mp h
    exact change fun _ => of_setId
  | deleteId =>
    obtain ⟨rfl, -⟩ := Naming.pure_eq_some.mp h
    exact .id none
  | setType type =>
    obtain ⟨rfl, -⟩ := Naming.pure_eq_some.mp h
    exact .setType type
  | clearType =>
    obtain ⟨rfl, -⟩ := Naming.pure_eq_some.mp h
    exact .clearType
  | describe | validate | walk | slot =>
    obtain ⟨rfl, -⟩ := Naming.pure_eq_some.mp h
    exact .nothing
  | deleteSlot key =>
    cases done : o.deleteSlot key with
    | none =>
      simp only [Object.run, done] at h
      obtain ⟨rfl, -⟩ := Naming.pure_eq_some.mp h
      exact .nothing
    | some changed =>
      simp only [Object.run, done] at h
      obtain ⟨rfl, -⟩ := Naming.pure_eq_some.mp h
      exact of_refills (refills_deleteSlot done)
  | setExtension key terms =>
    obtain ⟨values, middle, -, h⟩ := Naming.bind_eq_some.mp h
    obtain ⟨rfl, -⟩ := Naming.pure_eq_some.mp h
    exact change fun _ => of_setExtension
  | deleteExtension key =>
    obtain ⟨rfl, -⟩ := Naming.pure_eq_some.mp h
    exact .deleteExtension key
  | getExtension key =>
    cases found : o.extension? key
    all_goals
      simp only [Object.run, found] at h
      obtain ⟨rfl, -⟩ := Naming.pure_eq_some.mp h
      exact .nothing
  | reference key position =>
    rcases found : o.referenceAt key position with _ | _ | _
    all_goals
      simp only [Object.run, found] at h
      obtain ⟨rfl, -⟩ := Naming.pure_eq_some.mp h
      exact .nothing
  | narrow key position =>
    rcases found : o.referenceAt key position with _ | _ | _
    case ok.some =>
      simp only [Object.run, found] at h
      obtain ⟨rfl, -⟩ := Naming.pure_eq_some.mp h
      rw [snd_look]
      exact .nothing
    all_goals
      simp only [Object.run, found] at h
      obtain ⟨rfl, -⟩ := Naming.pure_eq_some.mp h
      exact .nothing
  | inside key position step =>
    rcases found : o.referenceAt key position with _ | _ | target
    case ok.some =>
      cases target with
      | object handle inner =>
        simp only [Object.run, found] at h
        obtain ⟨_, _, -, h⟩ := Naming.bind_eq_some.mp h
        obtain ⟨_, _, -, h⟩ := Naming.bind_eq_some.mp h
        obtain ⟨rfl, -⟩ := Naming.pure_eq_some.mp h
        exact putReference key position _
      | unset | iri =>
        simp only [Object.run, found] at h
        obtain ⟨rfl, -⟩ := Naming.pure_eq_some.mp h
        exact .nothing
    all_goals
      simp only [Object.run, found] at h
      obtain ⟨rfl, -⟩ := Naming.pure_eq_some.mp h
      exact .nothing

end Changes

end Object

end ShapedGraph

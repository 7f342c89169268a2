import ShapedGraph.Proofs.Faults
import ShapedGraph.Field

/-! Properties that stand on their own, changed step by step. A step that sets values stops at the
first fault in them, and a check reports every fault of what is stored. The two agree: a step is
refused exactly if the check of the state that it asks for finds a fault, it is refused with the
first of these, and nothing has changed then. So the check of a state that steps lead to finds
nothing. -/

namespace ShapedGraph

namespace Validator

/-- A chain that stops at the first fault stops at the first of those that are reported. -/
theorem firstError_eq (chain : List Validator) (name : String) (found : Located Scalar) :
    firstError chain name found.value = ((faults chain name found).head?).map (·.value) := by
  have forgets : ∀ validator : Validator,
      ((validator.check name found.value).map (Located.mk found.path)).map (·.value) =
        validator.check name found.value := by
    intro validator
    rw [Option.map_map]
    exact Option.map_id_apply
  rw [firstError, faults, List.head?_filterMap, List.map_findSome?]
  exact congrArg (List.findSome? · chain) (funext fun validator => (forgets validator).symm)

theorem firstErrorIn_eq (chain : List Validator) (name : String) (found : List (Located Scalar)) :
    firstErrorIn chain name (found.map (·.value)) =
      ((found.flatMap (faults chain name)).head?).map (·.value) := by
  rw [firstErrorIn, List.findSome?_map, List.head?_flatMap, List.map_findSome?]
  exact congrArg (List.findSome? · found) (funext (firstError_eq chain name))

end Validator

/-- The values of a list, whatever the path that they are found at. -/
theorem Slot.map_value_values_list (path : Path) (values : List Scalar) :
    (Slot.values path (.list values)).map (·.value) = values := by
  rw [Slot.values, List.map_map]
  exact List.zipIdx_map_fst 0 values

theorem Slot.map_value_values_scalar (path : Path) (value : Option Scalar) :
    (Slot.values path (.scalar value)).map (·.value) = value.toList := by
  cases value <;> rfl

/-! ## Steps and checks -/

/-- The outcome of a step is a fault, if it is refused, and the state after it. It is what a check
says of the state that the step asks for. -/
structure AsChecked {α : Type}
    (check : ∀ {σ : Type}, Handler σ → α → Path → Verdict σ → Verdict σ) (kept wanted : α)
    (outcome : Option ValidationError × α) : Prop where
  /-- A step succeeds if and only if the check of that state is passed, whatever the handler. -/
  succeeds_iff {σ : Type} (handle : Handler σ) (path : Path) (state : σ) :
    outcome.1 = none ↔ (check handle wanted path (.initial state)).valid = true
  /-- It succeeds if and only if no fault is reported. -/
  succeeds_iff_silent (path : Path) :
    outcome.1 = none ↔ (check .collect wanted path (.initial [])).state = []
  /-- The fault of a refused step is the first that is reported. -/
  first (path : Path) :
    outcome.1 = (check .collect wanted path (.initial [])).state.head?.map (·.value)
  succeeded : outcome.1 = none → outcome.2 = wanted
  refused : outcome.1 ≠ none → outcome.2 = kept

/-- A check of the property finds nothing, and every step on it has the outcome that a check has it
have. -/
structure Steady {α ι : Type}
    (check : ∀ {σ : Type}, Handler σ → α → Path → Verdict σ → Verdict σ) (wanted : α → ι → α)
    (take : α → ι → Option ValidationError × α) (kept : α) : Prop where
  silent {σ : Type} (handle : Handler σ) (path : Path) (verdict : Verdict σ) :
    check handle kept path verdict = verdict
  asChecked (step : ι) : AsChecked check kept (wanted kept step) (take kept step)

/-- What steps leave of a property, some of which may have been refused. -/
def afterSteps {α ι : Type} (take : α → ι → Option ValidationError × α) (kept : α)
    (steps : List ι) : α :=
  steps.foldl (fun kept step => (take kept step).2) kept

section Steps

variable {α ι : Type} {check : ∀ {σ : Type}, Handler σ → α → Path → Verdict σ → Verdict σ}
  {wanted : α → ι → α} {take : α → ι → Option ValidationError × α}
  {faults : α → Path → List (Located ValidationError)} {fault? : α → Option ValidationError}

/-- A property is steady if a check reports faults, and each step stops at the first fault of what
it asks for. -/
theorem Steady.of_stops
    (reports : ∀ {σ : Type} (handle : Handler σ) (kept : α) (path : Path) (verdict : Verdict σ),
      check handle kept path verdict = verdict.reportAll handle (faults kept path))
    (stops : ∀ kept path, fault? kept = (faults kept path).head?.map (·.value)) {kept : α}
    (sound : fault? kept = none)
    (takes : ∀ step, take kept step = (fault? (wanted kept step),
      if fault? (wanted kept step) = none then wanted kept step else kept)) :
    Steady check wanted take kept := by
  have none_iff : ∀ kept path, fault? kept = none ↔ faults kept path = [] := fun kept path => by
    rw [stops kept path, Option.map_eq_none_iff, List.head?_eq_none_iff]
  refine ⟨fun handle path verdict => ?_, fun step => ?_⟩
  · rw [reports, (none_iff kept path).mp sound]
    rfl
  rw [takes step]
  refine ⟨fun handle path state => ?_, fun path => ?_, fun path => ?_, fun succeeds => ?_,
    fun fails => ?_⟩
  · rw [none_iff _ path, reports, Verdict.reportAll_eq]
    exact List.isEmpty_iff.symm
  · rw [none_iff _ path, reports, Verdict.state_reportAll_collect]
  · rw [reports, Verdict.state_reportAll_collect]
    exact stops _ path
  · exact if_pos succeeds
  · exact if_neg fails

/-- What no step changes stays what it is. -/
theorem part_afterSteps {β : Type} (part : α → β)
    (keeps : ∀ kept step, part (take kept step).2 = part kept) (kept : α) (steps : List ι) :
    part (afterSteps take kept steps) = part kept := by
  induction steps generalizing kept with
  | nil => rfl
  | cons step steps ih => exact (ih (take kept step).2).trans (keeps kept step)

/-- Steps that are refused or lead to a state without a fault lead from such a state to another. -/
theorem fault?_afterSteps
    (takes : ∀ kept, fault? kept = none → ∀ step, take kept step = (fault? (wanted kept step),
      if fault? (wanted kept step) = none then wanted kept step else kept))
    {kept : α} (sound : fault? kept = none) (steps : List ι) :
    fault? (afterSteps take kept steps) = none := by
  induction steps generalizing kept with
  | nil => exact sound
  | cons step steps ih =>
    show fault? (afterSteps take (take kept step).2 steps) = none
    apply ih
    rw [takes kept sound step]
    by_cases accepted : fault? (wanted kept step) = none
    · simpa only [if_pos accepted] using accepted
    · simpa only [if_neg accepted] using sound

end Steps

/-! ## One value -/

/-- A change of a property that holds one value at most. -/
inductive Field.Step where
  | set (value : Scalar)
  | delete

namespace Field

/-- What a step makes of a property, and the fault that it is refused with. A property stays what it
is if the step is refused. -/
def take (field : Field) : Step → Option ValidationError × Field
  | .set value =>
    match field.set value with
    | .ok changed => (none, changed)
    | .error e => (some e, field)
  | .delete => (none, field.delete)

/-- The state that a step asks for, whether the chain accepts it or not. -/
def wanted (field : Field) : Step → Field
  | .set value => { field with value := some value }
  | .delete => { field with value := none }

def faults (field : Field) (path : Path) : List (Located ValidationError) :=
  (Slot.values path (.scalar field.value)).flatMap (Validator.faults field.chain field.name)

/-- The fault that a step which asks for what is stored would stop at. -/
def fault? (field : Field) : Option ValidationError :=
  Validator.firstErrorIn field.chain field.name field.value.toList

theorem check_eq {σ : Type} (handle : Handler σ) (field : Field) (path : Path)
    (verdict : Verdict σ) :
    field.check handle path verdict = verdict.reportAll handle (field.faults path) := by
  cases stored : field.value with
  | none => simp [check, stored, faults, Slot.values, Verdict.reportAll]
  | some value => simp [check, stored, faults, Slot.values, Verdict.checkValue_eq]

theorem fault?_eq (field : Field) (path : Path) :
    field.fault? = (field.faults path).head?.map (·.value) := by
  rw [fault?, ← Slot.map_value_values_scalar path, Validator.firstErrorIn_eq, faults]

theorem take_eq (field : Field) (step : Step) :
    field.take step = ((field.wanted step).fault?,
      if (field.wanted step).fault? = none then field.wanted step else field) := by
  cases step with
  | delete => rfl
  | set value =>
    have one : (field.wanted (.set value)).fault? =
        Validator.firstError field.chain field.name value := List.findSome?_singleton
    rw [one, take, set]
    cases Validator.firstError field.chain field.name value <;> rfl

/-- The property that steps on an empty one lead to. -/
def reached (name : String) (chain : List Validator) (steps : List Step) : Field :=
  afterSteps take (empty name chain) steps

theorem name_chain_take (field : Field) (step : Step) :
    ((field.take step).2.name, (field.take step).2.chain) = (field.name, field.chain) := by
  rw [take_eq]
  by_cases accepted : (field.wanted step).fault? = none
  · rw [if_pos accepted]
    cases step <;> rfl
  · rw [if_neg accepted]

end Field

/-! ## A list of values -/

/-- A change of a property that holds a list of values. -/
inductive ListField.Step where
  | set (values : List Scalar)
  | push (value : Scalar)
  | delete

namespace ListField

/-- What a step makes of a property, and the fault that it is refused with. A property stays what it
is if the step is refused. -/
def take (field : ListField) : Step → Option ValidationError × ListField
  | .set values =>
    match field.set values with
    | .ok changed => (none, changed)
    | .error e => (some e, field)
  | .push value =>
    match field.push value with
    | .ok changed => (none, changed)
    | .error e => (some e, field)
  | .delete => (none, field.delete)

/-- The state that a step asks for, whether the chain accepts it or not. -/
def wanted (field : ListField) : Step → ListField
  | .set values => { field with values }
  | .push value => { field with values := field.values ++ [value] }
  | .delete => { field with values := [] }

def faults (field : ListField) (path : Path) : List (Located ValidationError) :=
  (Slot.values path (.list field.values)).flatMap (Validator.faults field.chain field.name)

/-- The fault that a step which asks for what is stored would stop at. -/
def fault? (field : ListField) : Option ValidationError :=
  Validator.firstErrorIn field.chain field.name field.values

theorem check_eq {σ : Type} (handle : Handler σ) (field : ListField) (path : Path)
    (verdict : Verdict σ) :
    field.check handle path verdict = verdict.reportAll handle (field.faults path) :=
  Verdict.checkValues_eq ..

theorem fault?_eq (field : ListField) (path : Path) :
    field.fault? = (field.faults path).head?.map (·.value) := by
  rw [fault?, ← Slot.map_value_values_list path field.values, Validator.firstErrorIn_eq, faults]

/-- An element that is added has the first fault of the whole list, as what is stored has none. -/
theorem fault?_wanted_push {field : ListField} (sound : field.fault? = none) (value : Scalar) :
    (field.wanted (.push value)).fault? = Validator.firstError field.chain field.name value := by
  have stored : field.values.findSome? (Validator.firstError field.chain field.name) = none := sound
  rw [fault?, wanted, Validator.firstErrorIn, List.findSome?_append, stored, Option.none_or,
    List.findSome?_singleton]

theorem take_eq {field : ListField} (sound : field.fault? = none) (step : Step) :
    field.take step = ((field.wanted step).fault?,
      if (field.wanted step).fault? = none then field.wanted step else field) := by
  cases step with
  | delete => rfl
  | set values =>
    have whole : (field.wanted (.set values)).fault? =
        Validator.firstErrorIn field.chain field.name values := rfl
    rw [whole, take, set]
    cases Validator.firstErrorIn field.chain field.name values <;> rfl
  | push value =>
    rw [fault?_wanted_push sound, take, push]
    cases Validator.firstError field.chain field.name value <;> rfl

/-- The property that steps on an empty one lead to. -/
def reached (name : String) (chain : List Validator) (steps : List Step) : ListField :=
  afterSteps take (empty name chain) steps

theorem name_chain_take (field : ListField) (step : Step) :
    ((field.take step).2.name, (field.take step).2.chain) = (field.name, field.chain) := by
  cases step with
  | delete => rfl
  | set values =>
    simp only [take, set]
    cases Validator.firstErrorIn field.chain field.name values <;> rfl
  | push value =>
    simp only [take, push]
    cases Validator.firstError field.chain field.name value <;> rfl

end ListField

/-- Setting values and checking them agree. After any steps on an empty property a check with the
validators that it was made with finds nothing, and whatever step is next succeeds if and only if a
check of the state that it asks for finds nothing; otherwise it fails with the first fault that the
check reports, and changes nothing. -/
theorem steady_reached (name : String) (chain : List Validator) :
    (∀ steps : List Field.Step,
      ((Field.reached name chain steps).name, (Field.reached name chain steps).chain) =
          (name, chain) ∧
        Steady Field.check Field.wanted Field.take (Field.reached name chain steps)) ∧
    ∀ steps : List ListField.Step,
      ((ListField.reached name chain steps).name, (ListField.reached name chain steps).chain) =
          (name, chain) ∧
        Steady ListField.check ListField.wanted ListField.take
          (ListField.reached name chain steps) := by
  constructor
  · intro steps
    have made : ((Field.reached name chain steps).name, (Field.reached name chain steps).chain) =
        (name, chain) :=
      part_afterSteps (fun field : Field => (field.name, field.chain)) Field.name_chain_take _ steps
    have sound : (Field.reached name chain steps).fault? = none :=
      fault?_afterSteps (fun kept _ => kept.take_eq) rfl steps
    exact ⟨made, .of_stops Field.check_eq Field.fault?_eq sound (Field.take_eq _)⟩
  · intro steps
    have made : ((ListField.reached name chain steps).name,
        (ListField.reached name chain steps).chain) = (name, chain) :=
      part_afterSteps (fun field : ListField => (field.name, field.chain))
        ListField.name_chain_take _ steps
    have sound : (ListField.reached name chain steps).fault? = none :=
      fault?_afterSteps (fun _ sound => ListField.take_eq sound) rfl steps
    exact ⟨made, .of_stops ListField.check_eq ListField.fault?_eq sound (ListField.take_eq sound)⟩

end ShapedGraph

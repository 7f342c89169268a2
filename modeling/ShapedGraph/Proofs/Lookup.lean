import ShapedGraph.Proofs.Readings

/-! Values inside a JSON value, found by the steps that lead to them: a name goes to the member of
an object and a position to the element of a list. -/

namespace ShapedGraph.Json

/-- The value that steps lead to. -/
def at? : Json → List Segment → Option Json
  | json, [] => some json
  | .object members, .name key :: place =>
    (Members.get? members key).bind fun value => value.at? place
  | .list items, .index position :: place => items[position]?.bind fun item => item.at? place
  | _, _ :: _ => none

variable {json : Json} {key : String} {position : Nat} {place : List Segment}

@[simp] theorem at?_nil (json : Json) : json.at? [] = some json := by
  cases json <;> rfl

@[simp] theorem at?_name (members : List (String × Json)) (key : String) (place : List Segment) :
    (object members).at? (.name key :: place) =
      (Members.get? members key).bind fun value => value.at? place := rfl

@[simp] theorem at?_index (items : List Json) (position : Nat) (place : List Segment) :
    (list items).at? (.index position :: place) =
      items[position]?.bind fun item => item.at? place := rfl

/-- Only objects have members. -/
theorem exists_of_at?_name {found : Json} (h : json.at? (.name key :: place) = some found) :
    ∃ members value, json = .object members ∧ Members.get? members key = some value ∧
      value.at? place = some found := by
  cases json with
  | object members =>
    obtain ⟨value, there, inside⟩ := Option.bind_eq_some_iff.mp h
    exact ⟨members, value, rfl, there, inside⟩
  | _ => cases h

/-- Only lists have elements. -/
theorem exists_of_at?_index {found : Json} (h : json.at? (.index position :: place) = some found) :
    ∃ items item, json = .list items ∧ items[position]? = some item ∧
      item.at? place = some found := by
  cases json with
  | list items =>
    obtain ⟨item, there, inside⟩ := Option.bind_eq_some_iff.mp h
    exact ⟨items, item, rfl, there, inside⟩
  | _ => cases h

/-- Steps can be followed in two parts. -/
theorem at?_append (json : Json) (place more : List Segment) :
    json.at? (place ++ more) = (json.at? place).bind fun found => found.at? more := by
  induction place generalizing json with
  | nil => simp
  | cons segment place ih =>
    cases segment with
    | name key =>
      cases json with
      | object members => simp only [List.cons_append, at?_name, ih, Option.bind_assoc]
      | _ => rfl
    | index position =>
      cases json with
      | list items => simp only [List.cons_append, at?_index, ih, Option.bind_assoc]
      | _ => rfl

/-- What stands inside an ordered value is ordered. -/
theorem Ordered.of_at? {found : Json} (ordered : json.Ordered) (h : json.at? place = some found) :
    found.Ordered := by
  induction place generalizing json with
  | nil =>
    obtain rfl := Option.some.inj ((at?_nil json).symm.trans h)
    exact ordered
  | cons segment place ih =>
    cases segment with
    | name key =>
      obtain ⟨members, value, rfl, there, inside⟩ := exists_of_at?_name h
      cases ordered with
      | object _ each => exact ih (each _ (Members.mem_of_get? there)) inside
    | index position =>
      obtain ⟨items, item, rfl, there, inside⟩ := exists_of_at?_index h
      cases ordered with
      | list each => exact ih (each item (List.mem_of_getElem? there)) inside

/-- A bound on the paths of the objects in a value, said of each place that holds an object. -/
theorem staysWithin_iff_at? (ordered : json.Ordered) {limit length : Nat} :
    json.staysWithin limit length = true ↔
      ∀ place members, json.at? place = some (.object members) → length + place.length ≤ limit := by
  induction json using Json.induct generalizing length with
  | null | bool | integer | float | string =>
    refine ⟨fun _ place members found => ?_, fun _ => rfl⟩
    cases place with
    | nil => cases found
    | cons segment place => cases segment <;> cases found
  | list items ih =>
    cases ordered with
    | list ordered =>
      rw [staysWithin_list]
      constructor
      · intro within place members found
        cases place with
        | nil => cases found
        | cons segment place =>
          cases segment with
          | name key => cases found
          | index position =>
            obtain ⟨_, item, same, there, inside⟩ := exists_of_at?_index found
            cases same
            have among := List.mem_of_getElem? there
            have bound := (ih item among (ordered item among)).mp (within item among) place members
              inside
            simp only [List.length_cons]
            omega
      · intro bound item among
        rw [ih item among (ordered item among)]
        intro place members inside
        obtain ⟨position, there⟩ := List.mem_iff_getElem?.mp among
        have := bound (.index position :: place) members (by simp [there, inside])
        simp only [List.length_cons] at this
        omega
  | object members ih =>
    cases ordered with
    | object sorted ordered =>
      rw [staysWithin_object]
      constructor
      · rintro ⟨here, within⟩ place inner found
        cases place with
        | nil => simpa using here
        | cons segment place =>
          cases segment with
          | index position => cases found
          | name key =>
            obtain ⟨_, value, same, there, inside⟩ := exists_of_at?_name found
            cases same
            have among := Members.mem_of_get? there
            have bound := (ih (key, value) among (ordered _ among)).mp (within _ among) place inner
              inside
            simp only [List.length_cons]
            omega
      · intro bound
        refine ⟨by simpa using bound [] members rfl, fun m among => ?_⟩
        rw [ih m among (ordered m among)]
        intro place inner inside
        have there := Members.get?_of_mem sorted among
        have := bound (.name m.1 :: place) inner (by simp [there, inside])
        simp only [List.length_cons] at this
        omega

end ShapedGraph.Json

import ShapedGraph.Json.Basic

/-! JSON values as trees: induction over the values inside a value, the numbers that documents can
hold, and how far below a path the objects inside a value stand. -/

namespace ShapedGraph.Json

/-- Induction over the elements of lists and the members of objects. -/
@[elab_as_elim]
theorem induct {motive : Json → Prop} (null : motive .null) (bool : ∀ b, motive (.bool b))
    (integer : ∀ n, motive (.integer n)) (float : ∀ x, motive (.float x))
    (string : ∀ s, motive (.string s))
    (list : ∀ items, (∀ item ∈ items, motive item) → motive (.list items))
    (object : ∀ members : List (String × Json), (∀ m ∈ members, motive m.2) →
      motive (.object members)) (json : Json) : motive json :=
  @Json.rec motive (fun items => ∀ item ∈ items, motive item)
    (fun members => ∀ m ∈ members, motive m.2) (fun m => motive m.2)
    null bool integer float string list object
    (fun _ h => nomatch h)
    (fun _ _ head tail item h => (List.mem_cons.mp h).elim (fun same => same ▸ head) (tail item))
    (fun _ h => nomatch h)
    (fun _ _ head tail m h => (List.mem_cons.mp h).elim (fun same => same ▸ head) (tail m))
    (fun _ _ value => value) json

/-- The number is one that text can write: an integer of 64 bits with or without a sign, or a
finite floating point number. -/
inductive Representable : Json → Prop where
  | null : Representable .null
  | bool (b : Bool) : Representable (.bool b)
  | integer {n : Int} (lower : Int64.minValue.toInt ≤ n) (upper : n < UInt64.size) :
    Representable (.integer n)
  | float (negative : Bool) (rank : Fin rankCount) : Representable (.float (.finite negative rank))
  | string (s : String) : Representable (.string s)
  | list {items : List Json} (each : ∀ item ∈ items, Representable item) :
    Representable (.list items)
  | object {members : List (String × Json)} (each : ∀ m ∈ members, Representable m.2) :
    Representable (.object members)

attribute [simp] Representable.null Representable.bool Representable.float Representable.string

@[simp] theorem representable_integer {n : Int} :
    (integer n).Representable ↔ Int64.minValue.toInt ≤ n ∧ n < UInt64.size := by
  refine ⟨fun h => ?_, fun ⟨lower, upper⟩ => .integer lower upper⟩
  cases h with
  | integer lower upper => exact ⟨lower, upper⟩

@[simp] theorem representable_list {items : List Json} :
    (list items).Representable ↔ ∀ item ∈ items, item.Representable := by
  refine ⟨fun h => ?_, .list⟩
  cases h with
  | list each => exact each

@[simp] theorem representable_object {members : List (String × Json)} :
    (object members).Representable ↔ ∀ m ∈ members, m.2.Representable := by
  refine ⟨fun h => ?_, .object⟩
  cases h with
  | object each => exact each

mutual

/-- Every object in a value stands at a path of at most `limit` steps, if the value itself stands at
one of `length` steps. -/
def staysWithin (limit length : Nat) : Json → Bool
  | .object members => decide (length ≤ limit) && membersStayWithin limit (length + 1) members
  | .list items => itemsStayWithin limit (length + 1) items
  | _ => true
termination_by structural json => json

def itemsStayWithin (limit length : Nat) : List Json → Bool
  | [] => true
  | item :: items => item.staysWithin limit length && itemsStayWithin limit length items
termination_by structural items => items

def membersStayWithin (limit length : Nat) : List (String × Json) → Bool
  | [] => true
  | (_, value) :: members =>
    value.staysWithin limit length && membersStayWithin limit length members
termination_by structural members => members

end

theorem itemsStayWithin_iff {limit length : Nat} {items : List Json} :
    itemsStayWithin limit length items = true ↔
      ∀ item ∈ items, item.staysWithin limit length = true := by
  induction items with
  | nil => simp [itemsStayWithin]
  | cons item items ih => simp [itemsStayWithin, ih]

theorem membersStayWithin_iff {limit length : Nat} {members : List (String × Json)} :
    membersStayWithin limit length members = true ↔
      ∀ m ∈ members, m.2.staysWithin limit length = true := by
  induction members with
  | nil => simp [membersStayWithin]
  | cons m members ih =>
    obtain ⟨key, value⟩ := m
    simp [membersStayWithin, ih]

theorem staysWithin_list {limit length : Nat} {items : List Json} :
    (Json.list items).staysWithin limit length = true ↔
      ∀ item ∈ items, item.staysWithin limit (length + 1) = true := by
  rw [staysWithin, itemsStayWithin_iff]

theorem staysWithin_object {limit length : Nat} {members : List (String × Json)} :
    (Json.object members).staysWithin limit length = true ↔
      length ≤ limit ∧ ∀ m ∈ members, m.2.staysWithin limit (length + 1) = true := by
  rw [staysWithin, Bool.and_eq_true, decide_eq_true_eq, membersStayWithin_iff]

end ShapedGraph.Json

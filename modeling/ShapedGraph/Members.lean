/-! Tables from text keys to values, held as lists of entries in key order: the members of a JSON
object and the extension properties of a graph object. Keys are compared by code point, which is
also the order of their UTF-8 bytes. -/

namespace ShapedGraph

/-- The entries of a table, in ascending key order. -/
abbrev Members (α : Type) := List (String × α)

namespace Members

variable {α : Type}

def get? (table : Members α) (key : String) : Option α := table.lookup key

/-- Puts `value` under `key`, in the place of the value that was there. -/
def insert : Members α → String → α → Members α
  | [], key, value => [(key, value)]
  | (k, v) :: rest, key, value =>
    if key = k then (key, value) :: rest
    else if key < k then (key, value) :: (k, v) :: rest
    else (k, v) :: insert rest key value

def erase (table : Members α) (key : String) : Members α := table.filter (·.1 != key)

/-- Puts every entry of the second table into the first. -/
def union (table other : Members α) : Members α :=
  other.foldl (fun result entry => insert result entry.1 entry.2) table

/-- The table of a list of entries, the last one under a key counting. -/
def ofList (entries : List (String × α)) : Members α := union [] entries

@[simp] theorem get?_nil (key : String) : get? ([] : Members α) key = none := rfl

theorem get?_cons (k : String) (v : α) (rest : Members α) (key : String) :
    get? ((k, v) :: rest) key = if key = k then some v else get? rest key := by
  by_cases h : key = k
  · simp [get?, h]
  · simp [get?, List.lookup_cons, beq_eq_false_iff_ne.mpr h, h]

/-- What is put under a key is found there, and other keys are left alone. -/
theorem get?_insert (table : Members α) (key : String) (value : α) (other : String) :
    get? (insert table key value) other = if other = key then some value else get? table other := by
  induction table with
  | nil => simp [insert, get?_cons]
  | cons entry rest ih =>
    obtain ⟨k, v⟩ := entry
    simp only [insert]
    split
    · subst k; by_cases h : other = key <;> simp [get?_cons, h]
    · split
      · simp [get?_cons]
      · rename_i differ _
        simp only [get?_cons, ih]
        by_cases h : other = k
        · rw [if_pos h, if_neg (fun same => differ (same.symm.trans h)), if_pos h]
        · rw [if_neg h, if_neg h]

theorem get?_erase (table : Members α) (key other : String) :
    get? (erase table key) other = if other = key then none else get? table other := by
  induction table with
  | nil => simp [erase]
  | cons entry rest ih =>
    obtain ⟨k, v⟩ := entry
    by_cases hk : k = key
    · subst hk
      have step : erase ((k, v) :: rest) k = erase rest k := by simp [erase]
      rw [step, ih, get?_cons]
      split <;> rfl
    · have step : erase ((k, v) :: rest) key = (k, v) :: erase rest key := by simp [erase, hk]
      rw [step, get?_cons, get?_cons, ih]
      by_cases h : other = k
      · simp [h, hk]
      · simp [h]

end Members

end ShapedGraph

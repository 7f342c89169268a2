import ShapedGraph.Members

/-! Tables in key order. Putting an entry into a table keeps the order, and a table in key order is
determined by what is found in it. -/

namespace ShapedGraph.Members

variable {α : Type}

/-- The keys ascend, so no key stands twice. -/
def Sorted (table : Members α) : Prop := table.Pairwise (·.1 < ·.1)

instance (table : Members α) : Decidable (Sorted table) :=
  inferInstanceAs (Decidable (table.Pairwise fun a b => a.1 < b.1))

theorem sorted_nil : Sorted ([] : Members α) := List.Pairwise.nil

theorem mem_insert {table : Members α} {key : String} {value : α} {entry : String × α}
    (h : entry ∈ insert table key value) : entry = (key, value) ∨ entry ∈ table := by
  induction table with
  | nil => exact .inl (List.mem_singleton.mp h)
  | cons head rest ih =>
    obtain ⟨k, v⟩ := head
    simp only [insert] at h
    split at h
    · rcases List.mem_cons.mp h with h | h
      · exact .inl h
      · exact .inr (List.mem_cons_of_mem _ h)
    · split at h
      · exact List.mem_cons.mp h
      · rcases List.mem_cons.mp h with h | h
        · exact .inr (h ▸ List.mem_cons_self)
        · exact (ih h).imp_right (List.mem_cons_of_mem _)

/-- An entry stays in a table until its own key is put there. -/
theorem mem_insert_of_ne {table : Members α} {key : String} {value : α} {entry : String × α}
    (h : entry ∈ table) (other : entry.1 ≠ key) : entry ∈ insert table key value := by
  induction table with
  | nil => cases h
  | cons head rest ih =>
    obtain ⟨k, v⟩ := head
    simp only [insert]
    split
    · rename_i same
      rcases List.mem_cons.mp h with rfl | h
      · exact absurd same.symm other
      · exact List.mem_cons_of_mem _ h
    · split
      · exact List.mem_cons_of_mem _ h
      · rcases List.mem_cons.mp h with rfl | h
        · exact List.mem_cons_self
        · exact List.mem_cons_of_mem _ (ih h)

theorem mem_insert_self (table : Members α) (key : String) (value : α) :
    (key, value) ∈ insert table key value := by
  induction table with
  | nil => exact List.mem_cons_self
  | cons head rest ih =>
    simp only [insert]
    split
    · exact List.mem_cons_self
    · split
      · exact List.mem_cons_self
      · exact List.mem_cons_of_mem _ ih

theorem mem_union {table other : Members α} {entry : String × α} (h : entry ∈ union table other) :
    entry ∈ table ∨ entry ∈ other := by
  induction other generalizing table with
  | nil => exact .inl h
  | cons head rest ih =>
    rcases ih h with h | h
    · rcases mem_insert h with same | h
      · exact .inr (same ▸ List.mem_cons_self)
      · exact .inl h
    · exact .inr (List.mem_cons_of_mem _ h)

/-- Some value stands under the key. -/
def HasKey (table : Members α) (key : String) : Prop := ∃ value, (key, value) ∈ table

theorem hasKey_insert_self (table : Members α) (key : String) (value : α) :
    HasKey (insert table key value) key :=
  ⟨value, mem_insert_self table key value⟩

/-- Putting in an entry takes no key away. -/
theorem HasKey.insert {table : Members α} {key : String} (h : HasKey table key) (other : String)
    (value : α) : HasKey (insert table other value) key := by
  obtain ⟨old, h⟩ := h
  by_cases same : key = other
  · subst same
    exact hasKey_insert_self table key value
  · exact ⟨old, mem_insert_of_ne h same⟩

theorem HasKey.get? {table : Members α} {key : String} (h : HasKey table key) :
    ∃ value, get? table key = some value := by
  obtain ⟨value, h⟩ := h
  induction table with
  | nil => cases h
  | cons head rest ih =>
    obtain ⟨k, v⟩ := head
    rw [get?_cons]
    by_cases same : key = k
    · exact ⟨v, if_pos same⟩
    · rw [if_neg same]
      rcases List.mem_cons.mp h with h | h
      · cases h
        exact absurd rfl same
      · exact ih h

theorem sorted_insert {table : Members α} (sorted : Sorted table) (key : String) (value : α) :
    Sorted (insert table key value) := by
  induction table with
  | nil => exact List.pairwise_singleton _ _
  | cons head rest ih =>
    obtain ⟨k, v⟩ := head
    obtain ⟨first, tail⟩ := List.pairwise_cons.mp sorted
    simp only [insert]
    split
    · rename_i same
      subst same
      exact List.pairwise_cons.mpr ⟨first, tail⟩
    · rename_i differ
      split
      · rename_i less
        refine List.pairwise_cons.mpr ⟨fun entry h => ?_, sorted⟩
        rcases List.mem_cons.mp h with rfl | h
        · exact less
        · exact String.lt_trans less (first entry h)
      · rename_i notLess
        refine List.pairwise_cons.mpr ⟨fun entry h => ?_, ih tail⟩
        rcases mem_insert h with rfl | h
        · exact String.not_le.mp fun le => differ (String.le_antisymm le notLess)
        · exact first entry h

theorem sorted_union {table : Members α} (sorted : Sorted table) (other : Members α) :
    Sorted (union table other) := by
  induction other generalizing table with
  | nil => exact sorted
  | cons entry rest ih => exact ih (sorted_insert sorted entry.1 entry.2)

theorem insert_comm_of_lt (table : Members α) {key other : String} (less : key < other)
    (value value' : α) : insert (insert table key value) other value' =
      insert (insert table other value') key value := by
  have differ : key ≠ other := String.ne_of_lt less
  have notLess : ¬other < key := String.lt_asymm less
  induction table with
  | nil => simp only [insert, if_neg differ, if_neg differ.symm, if_pos less, if_neg notLess]
  | cons head rest ih =>
    obtain ⟨k, v⟩ := head
    by_cases same : key = k
    · subst same
      simp only [insert, if_true, if_neg differ.symm, if_neg notLess]
    by_cases before : key < k
    · -- The smaller key comes in front of all, wherever the other one goes.
      by_cases same' : other = k
      · subst same'
        simp only [insert, if_neg differ, if_neg differ.symm, if_pos less, if_neg notLess, if_true]
      by_cases before' : other < k
      · simp only [insert, if_neg differ, if_neg differ.symm, if_neg same, if_neg same',
          if_pos less, if_neg notLess, if_pos before, if_pos before']
      · simp only [insert, if_neg differ.symm, if_neg same, if_neg same', if_neg notLess,
          if_pos before, if_neg before']
    · have ahead : k < key := String.not_le.mp fun le =>
        same (String.le_antisymm le (String.not_lt.mp before))
      have behind : k < other := String.lt_trans ahead less
      have same' : other ≠ k := (String.ne_of_lt behind).symm
      simp only [insert, if_neg same, if_neg before, if_neg same', if_neg (String.lt_asymm behind),
        ih]

/-- Entries with different keys can be put in in either order. -/
theorem insert_comm (table : Members α) {key other : String} (differ : key ≠ other)
    (value value' : α) : insert (insert table key value) other value' =
      insert (insert table other value') key value := by
  by_cases less : key < other
  · exact insert_comm_of_lt table less value value'
  · refine (insert_comm_of_lt table (String.not_le.mp fun le => ?_) value' value).symm
    exact differ (String.le_antisymm le (String.not_lt.mp less))

/-- What is found under a key stands in the table. -/
theorem mem_of_get? {table : Members α} {key : String} {value : α}
    (h : get? table key = some value) : (key, value) ∈ table := by
  induction table with
  | nil => cases h
  | cons head rest ih =>
    obtain ⟨k, v⟩ := head
    rw [get?_cons] at h
    split at h
    · subst k
      cases h
      exact List.mem_cons_self
    · exact List.mem_cons_of_mem _ (ih h)

/-- Every entry of a table in key order is found under its key. -/
theorem get?_of_mem {table : Members α} (sorted : Sorted table) {key : String} {value : α}
    (h : (key, value) ∈ table) : get? table key = some value := by
  induction table with
  | nil => cases h
  | cons head rest ih =>
    obtain ⟨k, v⟩ := head
    obtain ⟨first, sorted⟩ := List.pairwise_cons.mp sorted
    rw [get?_cons]
    rcases List.mem_cons.mp h with same | h
    · cases same
      exact if_pos rfl
    · rw [if_neg (String.ne_of_lt (first _ h)).symm]
      exact ih sorted h

/-- A key in front of all keys of a table is not found there. -/
theorem get?_eq_none {table : Members α} {key : String} (h : ∀ entry ∈ table, key < entry.1) :
    get? table key = none := by
  cases found : get? table key with
  | none => rfl
  | some value => exact absurd (h _ (mem_of_get? found)) (String.lt_irrefl key)

/-- What is put in from a table in key order comes before what was there. -/
theorem get?_union {table other : Members α} (sorted : Sorted other) (key : String) :
    get? (union table other) key = (get? other key).or (get? table key) := by
  induction other generalizing table with
  | nil => rfl
  | cons head rest ih =>
    obtain ⟨k, v⟩ := head
    obtain ⟨first, tail⟩ := List.pairwise_cons.mp sorted
    have step : union table ((k, v) :: rest) = union (insert table k v) rest := rfl
    rw [step, ih tail, get?_insert, get?_cons]
    by_cases same : key = k
    · subst same
      rw [get?_eq_none first, if_pos rfl, if_pos rfl]
      rfl
    · rw [if_neg same, if_neg same]

/-- Tables in key order in which the same is found are the same. -/
theorem eq_of_get? {table other : Members α} (sorted : Sorted table) (sorted' : Sorted other)
    (same : ∀ key, get? table key = get? other key) : table = other := by
  induction table generalizing other with
  | nil =>
    cases other with
    | nil => rfl
    | cons head rest =>
      have := same head.1
      rw [get?_cons, if_pos rfl] at this
      cases this
  | cons head rest ih =>
    obtain ⟨k, v⟩ := head
    cases other with
    | nil =>
      have := same k
      rw [get?_cons, if_pos rfl] at this
      cases this
    | cons head' rest' =>
      obtain ⟨k', v'⟩ := head'
      obtain ⟨first, tail⟩ := List.pairwise_cons.mp sorted
      obtain ⟨first', tail'⟩ := List.pairwise_cons.mp sorted'
      have here : (k, v) ∈ (k', v') :: rest' := by
        refine mem_of_get? (?_ : get? _ k = some v)
        rw [← same k, get?_cons, if_pos rfl]
      have there : (k', v') ∈ (k, v) :: rest := by
        refine mem_of_get? (?_ : get? _ k' = some v')
        rw [same k', get?_cons, if_pos rfl]
      have heads : (k, v) = (k', v') := by
        rcases List.mem_cons.mp here with h | h
        · exact h
        · rcases List.mem_cons.mp there with h' | h'
          · exact h'.symm
          · exact absurd (first _ h') (String.lt_asymm (first' _ h))
      cases heads
      have rests : rest = rest' := by
        refine ih tail tail' fun key => ?_
        by_cases h : key = k
        · rw [h, get?_eq_none first, get?_eq_none first']
        · have := same key
          rwa [get?_cons, if_neg h, get?_cons, if_neg h] at this
      rw [rests]

/-- Entries under other keys are left alone by an entry that is put in first and taken out again. -/
theorem erase_union {table : Members α} {key : String} (sorted : Sorted table)
    (absent : get? table key = none) (value : α) :
    erase (union [(key, value)] table) key = table := by
  have alone : Sorted [(key, value)] := List.pairwise_singleton _ _
  refine eq_of_get? ((sorted_union alone table).filter _) sorted fun other => ?_
  rw [get?_erase, get?_union sorted, get?_cons, get?_nil]
  by_cases same : other = key
  · rw [if_pos same, same, absent]
  · rw [if_neg same, if_neg same, Option.or_none]

theorem erase_of_get?_eq_none {table : Members α} {key : String} (absent : get? table key = none) :
    erase table key = table := by
  refine List.filter_eq_self.mpr fun entry among => ?_
  rw [bne_iff_ne]
  rintro rfl
  obtain ⟨value, found⟩ := HasKey.get? ⟨entry.2, among⟩
  rw [absent] at found
  cases found

/-- An entry that is put in under a new key can be taken out again. -/
theorem erase_insert {table : Members α} {key : String} (absent : get? table key = none)
    (value : α) : erase (insert table key value) key = table := by
  induction table with
  | nil => simp [insert, erase]
  | cons head rest ih =>
    obtain ⟨k, v⟩ := head
    rw [get?_cons] at absent
    by_cases same : key = k
    · rw [if_pos same] at absent
      cases absent
    rw [if_neg same] at absent
    have step : ∀ table : Members α, erase ((k, v) :: table) key = (k, v) :: erase table key :=
      fun table => by simp [erase, Ne.symm same]
    simp only [insert, if_neg same]
    split
    · have taken : erase ((key, value) :: (k, v) :: rest) key = erase ((k, v) :: rest) key := by
        simp [erase]
      rw [taken, step, erase_of_get?_eq_none absent]
    · rw [step, ih absent]

end ShapedGraph.Members

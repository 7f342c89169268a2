import ShapedGraph.Decimal

/-! How many decimal digits a number has, and what zeros in front of its digits or behind them do
to the number that they write. -/

namespace ShapedGraph.Decimal

theorem extend_append (n : Nat) (ds es : List Nat) :
    extend n (ds ++ es) = extend (extend n ds) es := by
  simp [extend]

/-- Further digits do not make a number smaller. -/
theorem le_extend (n : Nat) (ds : List Nat) : n ≤ extend n ds := by
  induction ds generalizing n with
  | nil => exact Nat.le_refl n
  | cons d ds ih =>
    have step : n ≤ 10 * n + d := by omega
    exact Nat.le_trans step (ih (10 * n + d))

theorem extend_zeros (n count : Nat) :
    extend n (List.replicate count 0) = n * Nat.pow 10 count := by
  induction count generalizing n with
  | zero => exact (Nat.mul_one n).symm
  | succ count ih =>
    have step : Nat.pow 10 (count + 1) = Nat.pow 10 count * 10 := rfl
    rw [List.replicate_succ, show extend n (0 :: List.replicate count 0) =
      extend (10 * n) (List.replicate count 0) from rfl, ih, step, Nat.mul_comm 10 n,
      Nat.mul_assoc, Nat.mul_comm 10]

/-- Zeros behind digits multiply the number by powers of ten. -/
theorem ofChars_append_zeros (cs : List Char) (count : Nat) :
    ofChars (cs ++ List.replicate count '0') = ofChars cs * Nat.pow 10 count := by
  rw [ofChars, List.map_append, List.map_replicate, show charDigit '0' = 0 from rfl, value,
    extend_append, extend_zeros]
  rfl

/-- Zeros in front of digits do not count. -/
theorem ofChars_zeros_append (count : Nat) (cs : List Char) :
    ofChars (List.replicate count '0' ++ cs) = ofChars cs := by
  rw [ofChars, List.map_append, List.map_replicate, show charDigit '0' = 0 from rfl, value,
    extend_append, extend_zeros, Nat.zero_mul]
  rfl

theorem digitsBefore_length {steps n : Nat} (h : n ≤ steps) (positive : n ≠ 0) (done : List Nat) :
    ∃ k, (digitsBefore steps n done).length = done.length + k + 1 ∧ Nat.pow 10 k ≤ n ∧
      n < Nat.pow 10 (k + 1) := by
  induction steps generalizing n done with
  | zero => omega
  | succ steps ih =>
    simp only [digitsBefore]
    split
    · refine ⟨0, rfl, ?_, ?_⟩
      · show 1 ≤ n; omega
      · show n < 10; assumption
    · obtain ⟨k, length, lower, upper⟩ := ih (n := n / 10) (by omega) (by omega) (n % 10 :: done)
      have step (j : Nat) : Nat.pow 10 (j + 1) = Nat.pow 10 j * 10 := rfl
      refine ⟨k + 1, ?_, ?_, ?_⟩
      · rw [length, List.length_cons]; omega
      · rw [step]; omega
      · rw [step]; omega

/-- A number that is not zero lies between the powers of ten that its digits span. -/
theorem digits_span {n : Nat} (positive : n ≠ 0) :
    ∃ k, (digits n).length = k + 1 ∧ Nat.pow 10 k ≤ n ∧ n < Nat.pow 10 (k + 1) := by
  obtain ⟨k, length, bounds⟩ := digitsBefore_length (Nat.le_refl n) positive []
  exact ⟨k, by simpa [digits] using length, bounds⟩

theorem digits_length_pos (n : Nat) : 0 < (digits n).length := by
  by_cases h : n = 0
  · subst h; decide
  · obtain ⟨k, length, -⟩ := digits_span h
    omega

/-- Fewer digits than a width suffice for the numbers below its power of ten. -/
theorem digits_length_le {n width : Nat} (positive : 0 < width) (h : n < Nat.pow 10 width) :
    (digits n).length ≤ width := by
  by_cases zero : n = 0
  · subst zero; exact positive
  · obtain ⟨k, length, lower, -⟩ := digits_span zero
    have less : 10 ^ k < 10 ^ width := Nat.lt_of_le_of_lt lower h
    have := (Nat.pow_lt_pow_iff_right (by decide : 1 < 10)).mp less
    omega

theorem isDigit_digitChar {d : Nat} (h : d < 10) : (digitChar d).isDigit = true := by
  have all : ∀ e < 10, (digitChar e).isDigit = true := by decide
  exact all d h

theorem chars_isDigit {n : Nat} {c : Char} (h : c ∈ chars n) : c.isDigit = true := by
  obtain ⟨d, hd, rfl⟩ := List.mem_map.mp h
  exact isDigit_digitChar (digits_lt hd)

theorem charDigit_lt {c : Char} (h : c.isDigit = true) : charDigit c < 10 := by
  simp only [Char.isDigit, Bool.and_eq_true, decide_eq_true_eq] at h
  have upper : c.toNat ≤ 57 := h.2
  unfold charDigit
  omega

theorem extend_lt {n bound : Nat} {ds : List Nat} (digits : ∀ d ∈ ds, d < 10) (h : n < bound) :
    extend n ds < bound * Nat.pow 10 ds.length := by
  induction ds generalizing n bound with
  | nil => exact Nat.lt_of_lt_of_eq h (Nat.mul_one bound).symm
  | cons d ds ih =>
    have small := digits d List.mem_cons_self
    have more := ih (fun e he => digits e (List.mem_cons_of_mem d he))
      (show 10 * n + d < bound * 10 by omega)
    have step : Nat.pow 10 (d :: ds).length = 10 * Nat.pow 10 ds.length := Nat.mul_comm ..
    rw [step, ← Nat.mul_assoc]
    exact more

/-- Digit characters write a number below the power of ten that they span. -/
theorem ofChars_lt {cs : List Char} (digits : cs.all Char.isDigit = true) :
    ofChars cs < Nat.pow 10 cs.length := by
  have small : ∀ d ∈ cs.map charDigit, d < 10 := by
    intro d hd
    obtain ⟨c, hc, rfl⟩ := List.mem_map.mp hd
    exact charDigit_lt (List.all_eq_true.mp digits c hc)
  simpa [ofChars, value] using extend_lt small Nat.zero_lt_one

theorem extend_inj {n m : Nat} {ds es : List Nat} (length : ds.length = es.length)
    (small : ∀ d ∈ ds, d < 10) (small' : ∀ e ∈ es, e < 10) (same : extend n ds = extend m es) :
    n = m ∧ ds = es := by
  induction ds generalizing n m es with
  | nil =>
    cases es with
    | nil => exact ⟨same, rfl⟩
    | cons e es => cases length
  | cons d ds ih =>
    cases es with
    | nil => cases length
    | cons e es =>
      obtain ⟨hd, small⟩ := List.forall_mem_cons.mp small
      obtain ⟨he, small'⟩ := List.forall_mem_cons.mp small'
      obtain ⟨front, rfl⟩ := ih (Nat.succ.inj length) small small'
        (show extend (10 * n + d) ds = extend (10 * m + e) es from same)
      obtain ⟨rfl, rfl⟩ : n = m ∧ d = e := by omega
      exact ⟨rfl, rfl⟩

theorem digitChar_charDigit {c : Char} (h : c.isDigit = true) : digitChar (charDigit c) = c := by
  simp only [Char.isDigit, Bool.and_eq_true, decide_eq_true_eq] at h
  have lower : 48 ≤ c.toNat := h.1
  rw [digitChar, charDigit, Nat.add_sub_cancel' lower, Char.ofNat_toNat]

/-- Digit characters at a width are determined by the number that they write. -/
theorem ofChars_inj {cs ds : List Char} (length : cs.length = ds.length)
    (digits : cs.all Char.isDigit = true) (digits' : ds.all Char.isDigit = true)
    (same : ofChars cs = ofChars ds) : cs = ds := by
  have back {es : List Char} (h : es.all Char.isDigit = true) :
      (es.map charDigit).map digitChar = es := by
    rw [List.map_map, List.map_congr_left (g := id), List.map_id]
    exact fun c among => digitChar_charDigit (List.all_eq_true.mp h c among)
  have small {es : List Char} (h : es.all Char.isDigit = true) : ∀ d ∈ es.map charDigit, d < 10 :=
    List.forall_mem_map.mpr fun c among => charDigit_lt (List.all_eq_true.mp h c among)
  obtain ⟨-, same⟩ := extend_inj (by simpa using length) (small digits) (small digits') same
  rw [← back digits, same, back digits']

/-! ## Digits at a width -/

/-- The last `width` digits of `n`, with zeros where it has fewer. -/
def fixed : Nat → Nat → List Char
  | 0, _ => []
  | width + 1, n => fixed width (n / 10) ++ [digitChar (n % 10)]

@[simp] theorem length_fixed (width n : Nat) : (fixed width n).length = width := by
  induction width generalizing n with
  | zero => rfl
  | succ width ih => rw [fixed, List.length_append, ih, List.length_singleton]

theorem isDigit_fixed (width n : Nat) : (fixed width n).all Char.isDigit = true := by
  induction width generalizing n with
  | zero => rfl
  | succ width ih =>
    rw [fixed, List.all_append, ih, List.all_cons, List.all_nil,
      isDigit_digitChar (Nat.mod_lt n (by decide))]
    rfl

theorem ofChars_fixed {width n : Nat} (h : n < Nat.pow 10 width) : ofChars (fixed width n) = n := by
  induction width generalizing n with
  | zero => exact (Nat.lt_one_iff.mp h).symm
  | succ width ih =>
    have front : n / 10 < Nat.pow 10 width :=
      Nat.div_lt_of_lt_mul (Nat.mul_comm (Nat.pow 10 width) 10 ▸ h)
    have step (cs : List Char) (d : Nat) (small : d < 10) :
        ofChars (cs ++ [digitChar d]) = 10 * ofChars cs + d := by
      rw [ofChars, List.map_append, value, extend_append, List.map_singleton,
        charDigit_digitChar small]
      rfl
    rw [fixed, step _ _ (Nat.mod_lt n (by decide)), ih front]
    omega

/-- Digit characters are the digits, at their width, of the number that they write. -/
theorem fixed_ofChars {cs : List Char} (digits : cs.all Char.isDigit = true) :
    fixed cs.length (ofChars cs) = cs :=
  ofChars_inj (length_fixed ..) (isDigit_fixed ..) digits (ofChars_fixed (ofChars_lt digits))

end ShapedGraph.Decimal

import ShapedGraph.Binary64.Shortest

/-! Rounding of exact ratios to ranks: equal ratios round alike, a magnitude that a rank has is
rounded to that rank, ratios that are too large or too small leave the ranks, and a larger ratio is
not rounded to a smaller rank. -/

namespace ShapedGraph.Binary64

theorem unitsInOne_pos : 0 < unitsInOne := by
  rw [unitsInOne, Nat.one_shiftLeft]
  exact Nat.two_pow_pos 1074

theorem exists_unitsInOne : ∃ b, b = 1074 ∧ unitsInOne = 1 <<< b :=
  ⟨_, rfl, rfl⟩

theorem nearestRank_mul_right (num den : Nat) {factor : Nat} (positive : 0 < factor) :
    nearestRank (num * factor) (den * factor) = nearestRank num den := by
  have exact : num * factor * unitsInOne = num * unitsInOne * factor := by
    rw [Nat.mul_assoc, Nat.mul_comm factor, ← Nat.mul_assoc]
  have step (k : Nat) : (den * factor) <<< k = den <<< k * factor := by
    rw [Nat.shiftLeft_eq, Nat.shiftLeft_eq, Nat.mul_assoc, Nat.mul_comm factor, ← Nat.mul_assoc]
  simp only [nearestRank, exact, step, Nat.mul_div_mul_right _ _ positive,
    Nat.mul_mod_mul_right]
  have nonzero : factor ≠ 0 := by omega
  simp only [← Nat.mul_assoc, Nat.mul_lt_mul_right positive, Nat.mul_left_inj nonzero]

theorem nearestRank_congr {num den num' den' : Nat} (positive : 0 < den) (positive' : 0 < den')
    (same : num * den' = num' * den) : nearestRank num den = nearestRank num' den' := by
  rw [← nearestRank_mul_right num den positive', ← nearestRank_mul_right num' den' positive, same,
    Nat.mul_comm den]

theorem log2_lt_binade {rank : Nat} (h : rank < binadeSize) : rank.log2 ≤ 51 := by
  by_cases zero : rank = 0
  · subst zero; decide
  · have := (Nat.log2_lt zero).mpr (show rank < 2 ^ 52 from h)
    omega

/-- A magnitude counted in units is rounded to its own rank. -/
theorem nearestRank_units (rank : Nat) : nearestRank (units rank) unitsInOne = rank := by
  have whole : units rank * unitsInOne / unitsInOne = units rank :=
    Nat.mul_div_cancel _ unitsInOne_pos
  by_cases small : rank < binadeSize
  · have same : units rank = rank := by
      rw [units, significand, if_pos small, scale, Nat.div_eq_of_lt small, Nat.zero_sub,
        Nat.shiftLeft_zero]
    have doublings : rank.log2 - 52 = 0 := by
      have := log2_lt_binade small; omega
    rw [same] at whole
    simp only [nearestRank, same, whole, doublings, Nat.shiftLeft_zero, Nat.mul_mod_left]
    rw [if_neg (by have := unitsInOne_pos; omega), Nat.zero_mul, Nat.zero_add]
  · -- A normal magnitude: the doublings of its significand are the shift that rounding takes back.
    have normal := Nat.le_of_not_lt small
    have fraction : rank % binadeSize < binadeSize := Nat.mod_lt _ (by decide)
    have parts : binadeSize * (rank / binadeSize) + rank % binadeSize = rank :=
      Nat.div_add_mod rank binadeSize
    have binade : 1 ≤ rank / binadeSize := Nat.div_pos normal (by decide)
    generalize hs : rank / binadeSize - 1 = s
    have same : units rank = (binadeSize + rank % binadeSize) * 2 ^ s := by
      rw [units, significand, if_neg small, scale, hs, Nat.shiftLeft_eq]
    have positive : 0 < 2 ^ s := Nat.two_pow_pos s
    have doublings : (units rank).log2 - 52 = s := by
      have lower : 2 ^ (52 + s) ≤ units rank := by
        rw [same, Nat.pow_add]
        exact Nat.mul_le_mul_right _ (Nat.le_add_right binadeSize _)
      have upper : units rank < 2 ^ (52 + s + 1) := by
        rw [same, show 52 + s + 1 = 53 + s by omega, Nat.pow_add]
        refine Nat.mul_lt_mul_of_pos_right ?_ positive
        show _ < binadeSize + binadeSize
        omega
      have nonzero : units rank ≠ 0 := by
        have := Nat.two_pow_pos (52 + s); omega
      rw [(Nat.log2_eq_iff nonzero).mpr ⟨lower, upper⟩]
      omega
    have step : unitsInOne <<< s = 2 ^ s * unitsInOne := by rw [Nat.shiftLeft_eq, Nat.mul_comm]
    have below : units rank * unitsInOne / (2 ^ s * unitsInOne) =
        binadeSize + rank % binadeSize := by
      rw [Nat.mul_div_mul_right _ _ unitsInOne_pos, same, Nat.mul_div_cancel _ positive]
    have rest : units rank * unitsInOne % (2 ^ s * unitsInOne) = 0 := by
      rw [Nat.mul_mod_mul_right, same, Nat.mul_mod_left, Nat.zero_mul]
    have step_pos : 0 < 2 ^ s * unitsInOne := Nat.mul_pos positive unitsInOne_pos
    simp only [nearestRank, whole, doublings, step, below, rest]
    rw [if_neg (by omega), Nat.mul_comm s]
    have : rank / binadeSize = s + 1 := by omega
    rw [this, Nat.mul_add] at parts
    omega

theorem nearestRank_zero {den : Nat} (positive : 0 < den) : nearestRank 0 den = 0 := by
  have zero : (0 : Nat).log2 - 52 = 0 := by decide
  simp only [nearestRank, Nat.zero_mul, Nat.zero_div, zero, Nat.shiftLeft_zero, Nat.zero_mod]
  rw [if_neg (by omega)]

/-- A magnitude is doubled back until it has at most 53 bits. -/
theorem scaled_lt (q : Nat) : q >>> (q.log2 - 52) < 2 * binadeSize := by
  rw [Nat.shiftRight_eq_div_pow]
  by_cases zero : q = 0
  · subst zero; decide
  · refine Nat.div_lt_of_lt_mul ?_
    have := (Nat.log2_lt zero).mp (show q.log2 < (q.log2 - 52) + 53 by omega)
    rwa [Nat.pow_add] at this

theorem le_scaled {q : Nat} (h : 52 ≤ q.log2) : binadeSize ≤ q >>> (q.log2 - 52) := by
  have nonzero : q ≠ 0 := by
    rintro rfl
    revert h; decide
  rw [Nat.shiftRight_eq_div_pow, Nat.le_div_iff_mul_le (Nat.two_pow_pos _)]
  have := Nat.log2_self_le nonzero
  rwa [show q.log2 = 52 + (q.log2 - 52) by omega, Nat.pow_add] at this

/-- A ratio of at least `2 ^ 1024` is rounded past the last rank. -/
theorem rankCount_le_nearestRank {num den : Nat} (positive : 0 < den)
    (large : den * (1 <<< 1024) ≤ num) : rankCount ≤ nearestRank num den := by
  obtain ⟨b, unit, one⟩ := exists_unitsInOne
  generalize bound : 1024 = a at large
  obtain ⟨n, sum⟩ : ∃ n, n = a + b := ⟨_, rfl⟩
  have exact : den * 2 ^ n ≤ num * unitsInOne := by
    rw [Nat.one_shiftLeft] at large one
    rw [one, sum, Nat.pow_add, ← Nat.mul_assoc]
    exact Nat.mul_le_mul_right _ large
  simp only [nearestRank]
  generalize num * unitsInOne = e at exact ⊢
  have quotient : 2 ^ n ≤ e / den := (Nat.le_div_iff_mul_le positive).mpr (by rwa [Nat.mul_comm])
  have nonzero : e / den ≠ 0 :=
    Nat.pos_iff_ne_zero.mp (Nat.lt_of_lt_of_le (Nat.two_pow_pos n) quotient)
  have log : n ≤ (e / den).log2 := (Nat.le_log2 nonzero).mpr quotient
  have below := le_scaled (show 52 ≤ (e / den).log2 by omega)
  rw [Nat.shiftRight_eq_div_pow, Nat.div_div_eq_div_mul, ← Nat.shiftLeft_eq] at below
  clear exact quotient large
  generalize doublings : (e / den).log2 - 52 = k at below ⊢
  have many : 2046 * binadeSize ≤ k * binadeSize := Nat.mul_le_mul_right _ (by omega)
  have total : rankCount = 2046 * binadeSize + binadeSize := by decide
  rw [total]
  refine Nat.add_le_add many ?_
  split <;> omega

/-- A ratio of less than half a unit is rounded to zero. -/
theorem nearestRank_eq_zero {num den : Nat} (small : 2 * (num * unitsInOne) < den) :
    nearestRank num den = 0 := by
  have zero : (0 : Nat).log2 - 52 = 0 := by decide
  have whole : num * unitsInOne / den = 0 := Nat.div_eq_of_lt (by omega)
  have rest : num * unitsInOne % den = num * unitsInOne := Nat.mod_eq_of_lt (by omega)
  simp only [nearestRank, whole, zero, Nat.shiftLeft_zero, rest]
  rw [if_neg (by omega), Nat.zero_mul]

/-- An integer of up to 65 bits is rounded to a rank. -/
theorem nearestRank_lt_rankCount {n : Nat} (small : n < 1 <<< 65) :
    nearestRank n 1 < rankCount := by
  obtain ⟨b, unit, one⟩ := exists_unitsInOne
  have exact : n * unitsInOne < 2 ^ (65 + b) := by
    rw [one, Nat.one_shiftLeft, Nat.pow_add, ← Nat.one_shiftLeft 65]
    exact Nat.mul_lt_mul_of_pos_right small (Nat.two_pow_pos b)
  simp only [nearestRank, Nat.div_one, Nat.one_shiftLeft]
  generalize n * unitsInOne = e at exact ⊢
  by_cases zero : e = 0
  · subst zero
    have none : (0 : Nat).log2 - 52 = 0 := by decide
    rw [none, Nat.zero_div, Nat.zero_mod, if_neg (by omega)]
    decide
  have log : e.log2 < 65 + b := (Nat.log2_lt zero).mpr exact
  have below := scaled_lt e
  rw [Nat.shiftRight_eq_div_pow] at below
  generalize doublings : e.log2 - 52 = k at below ⊢
  have few : k * binadeSize ≤ 1087 * binadeSize := Nat.mul_le_mul_right _ (by omega)
  have total : rankCount = 1087 * binadeSize + 960 * binadeSize := by decide
  have positive : 0 < binadeSize := by decide
  rw [total]
  refine Nat.add_lt_add_of_le_of_lt few ?_
  split <;> omega

/-- The number nearest to an integer of 64 bits, with or without a sign, is finite. -/
theorem ofInt_finite {n : Int} (lower : Int64.minValue.toInt ≤ n) (upper : n < UInt64.size) :
    ∃ rank, ofInt n = .finite (n < 0) rank := by
  have least : Int64.minValue.toInt = -9223372036854775808 := by decide
  have size : UInt64.size = 18446744073709551616 := rfl
  have small : nearestRank n.natAbs 1 < rankCount :=
    nearestRank_lt_rankCount (show n.natAbs < 36893488147419103232 by omega)
  exact ⟨⟨_, small⟩, dif_pos small⟩

/-! ## Rounding keeps the order -/

/-- The multiple of `step` nearest to `exact`, counted in steps; a magnitude halfway between two
multiples goes to the even one. -/
def nearestMultiple (exact step : Nat) : Nat :=
  if step < 2 * (exact % step) ∨ (step = 2 * (exact % step) ∧ exact / step % 2 = 1) then
    exact / step + 1
  else exact / step

theorem nearestRank_eq (num den : Nat) : nearestRank num den =
    ((num * unitsInOne / den).log2 - 52) * binadeSize +
      nearestMultiple (num * unitsInOne) (den <<< ((num * unitsInOne / den).log2 - 52)) := rfl

theorem div_le_nearestMultiple (exact step : Nat) : exact / step ≤ nearestMultiple exact step := by
  unfold nearestMultiple
  split <;> omega

theorem nearestMultiple_le (exact step : Nat) : nearestMultiple exact step ≤ exact / step + 1 := by
  unfold nearestMultiple
  split <;> omega

theorem nearestMultiple_mono {exact exact' : Nat} (step : Nat) (h : exact ≤ exact') :
    nearestMultiple exact step ≤ nearestMultiple exact' step := by
  have quotients : exact / step ≤ exact' / step := Nat.div_le_div_right h
  rcases Nat.lt_or_eq_of_le quotients with less | same
  · calc nearestMultiple exact step ≤ exact / step + 1 := nearestMultiple_le exact step
      _ ≤ exact' / step := less
      _ ≤ nearestMultiple exact' step := div_le_nearestMultiple exact' step
  · -- In the same step the remainders decide.
    have rests : exact % step ≤ exact' % step := by
      have parts := Nat.div_add_mod exact step
      have parts' := Nat.div_add_mod exact' step
      rw [← same] at parts'
      omega
    simp only [nearestMultiple, same]
    split <;> split <;> omega

theorem log2_le_log2 {m n : Nat} (h : m ≤ n) : m.log2 ≤ n.log2 := by
  by_cases zero : m = 0
  · subst zero; exact Nat.zero_le _
  · exact (Nat.le_log2 (by omega)).mpr (Nat.le_trans (Nat.log2_self_le zero) h)

/-- A larger magnitude is not rounded to a smaller rank. -/
theorem nearestRank_mono {num num' : Nat} (den : Nat) (h : num ≤ num') :
    nearestRank num den ≤ nearestRank num' den := by
  simp only [nearestRank_eq]
  have exact : num * unitsInOne ≤ num' * unitsInOne := Nat.mul_le_mul_right _ h
  generalize num * unitsInOne = e at exact ⊢
  generalize num' * unitsInOne = e' at exact ⊢
  have doublings : (e / den).log2 ≤ (e' / den).log2 := log2_le_log2 (Nat.div_le_div_right exact)
  by_cases same : (e / den).log2 - 52 = (e' / den).log2 - 52
  · rw [same]
    exact Nat.add_le_add_left (nearestMultiple_mono _ exact) _
  · -- With more doublings the larger magnitude is in a later binade.
    have upper := scaled_lt (e / den)
    have lower := le_scaled (show 52 ≤ (e' / den).log2 by omega)
    rw [Nat.shiftRight_eq_div_pow, Nat.div_div_eq_div_mul, ← Nat.shiftLeft_eq] at upper lower
    have above := nearestMultiple_le e (den <<< ((e / den).log2 - 52))
    have below := div_le_nearestMultiple e' (den <<< ((e' / den).log2 - 52))
    have more : ((e / den).log2 - 52 + 1) * binadeSize ≤ ((e' / den).log2 - 52) * binadeSize :=
      Nat.mul_le_mul_right _ (by omega)
    rw [Nat.add_one_mul] at more
    omega

/-- Ranks are numbered upwards. -/
theorem units_lt_units {rank rank' : Nat} (h : rank < rank') : units rank < units rank' := by
  refine Nat.lt_of_not_le fun le => ?_
  have := nearestRank_mono unitsInOne le
  rw [nearestRank_units, nearestRank_units] at this
  omega

theorem units_le_units {rank rank' : Nat} (h : rank ≤ rank') : units rank ≤ units rank' := by
  rcases Nat.lt_or_eq_of_le h with less | rfl
  · exact Nat.le_of_lt (units_lt_units less)
  · exact Nat.le_refl _

end ShapedGraph.Binary64

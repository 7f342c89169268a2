import ShapedGraph.Binary64.Text
import ShapedGraph.Proofs.Decimal
import ShapedGraph.Proofs.Rounding

/-! Text of floating point numbers: whatever digits are chosen, they round back to the number, so
its positional text is read as the number again. -/

namespace ShapedGraph

namespace Scientific

theorem pow_ten_pos (k : Nat) : 0 < Nat.pow 10 k := Nat.pow_pos (by decide)

theorem pow_ten_succ (k : Nat) : Nat.pow 10 (k + 1) = Nat.pow 10 k * 10 := rfl

theorem denominator_pos (x : Scientific) : 0 < x.denominator := pow_ten_pos _

theorem numerator_of_nonpos {x : Scientific} (h : x.exponent ≤ 0) : x.numerator = x.digits := by
  rw [numerator, Int.toNat_of_nonpos h]
  exact Nat.mul_one _

theorem denominator_of_neg {x : Scientific} {places : Nat} (h : x.exponent = -(places : Int)) :
    x.denominator = Nat.pow 10 places := by
  rw [denominator, h, Int.neg_neg, Int.toNat_natCast]

/-- A trailing zero is moved into the exponent without changing what the magnitude rounds to. -/
theorem nearestRank_shift {digits : Nat} {exponent : Int} (zero : digits % 10 = 0) :
    Binary64.nearestRank (numerator ⟨digits / 10, exponent + 1⟩)
        (denominator ⟨digits / 10, exponent + 1⟩) =
      Binary64.nearestRank (numerator ⟨digits, exponent⟩) (denominator ⟨digits, exponent⟩) := by
  refine Binary64.nearestRank_congr (denominator_pos _) (denominator_pos _) ?_
  have whole : digits = digits / 10 * 10 := by omega
  generalize digits / 10 = k at whole ⊢
  subst whole
  simp only [numerator, denominator]
  by_cases sign : 0 ≤ exponent
  · rw [show (exponent + 1).toNat = exponent.toNat + 1 by omega,
      show (-(exponent + 1)).toNat = 0 by omega, show (-exponent).toNat = 0 by omega, pow_ten_succ,
      Nat.mul_comm (Nat.pow 10 _) 10, ← Nat.mul_assoc]
  · rw [show (exponent + 1).toNat = 0 by omega, show exponent.toNat = 0 by omega,
      show (-exponent).toNat = (-(exponent + 1)).toNat + 1 by omega, pow_ten_succ]
    show k * 1 * _ = k * 10 * 1 * _
    rw [Nat.mul_one, Nat.mul_one, Nat.mul_comm (Nat.pow 10 _) 10, ← Nat.mul_assoc]

theorem nearestRank_trim (steps : Nat) (x : Scientific) :
    Binary64.nearestRank (trim steps x).numerator (trim steps x).denominator =
      Binary64.nearestRank x.numerator x.denominator := by
  induction steps generalizing x with
  | zero => rfl
  | succ steps ih =>
    simp only [trim]
    split
    · rename_i zero
      rw [ih, nearestRank_shift zero.2]
    · rfl

end Scientific

namespace Binary64

theorem readsBack_iff {rank : Nat} {x : Scientific} :
    readsBack rank x = true ↔ nearestRank x.numerator x.denominator = rank := by
  rw [readsBack, beq_iff_eq]

/-- A neighbour is written only if it reads back. -/
theorem hits_of_chooseNeighbour {tie : Tie} {den rest : Nat} {below above : Neighbour}
    {x : Scientific} (h : chooseNeighbour tie den rest below above = some x) :
    (below.hits = true ∧ x = below.value) ∨ (above.hits = true ∧ x = above.value) := by
  obtain ⟨below, hitsBelow⟩ := below
  obtain ⟨above, hitsAbove⟩ := above
  cases hitsBelow <;> cases hitsAbove <;> simp only [chooseNeighbour, Option.some.injEq] at h
  · cases h
  · exact .inr ⟨rfl, h.symm⟩
  · exact .inl ⟨rfl, h.symm⟩
  · split at h
    · exact .inr ⟨rfl, h.symm⟩
    · exact .inl ⟨rfl, h.symm⟩

theorem readsBack_of_onGrid {tie : Tie} {rank : Nat} {exponent : Int} {x : Scientific}
    (h : onGrid tie rank exponent = some x) : readsBack rank x = true := by
  unfold onGrid at h
  rcases hits_of_chooseNeighbour h with ⟨hits, rfl⟩ | ⟨hits, rfl⟩
  · exact hits
  · exact hits

/-- A decimal magnitude that is a rank's magnitude exactly rounds to that rank. -/
theorem nearestRank_of_units {rank factor : Nat} {x : Scientific}
    (digits : x.digits = units rank * factor) (nonpos : x.exponent ≤ 0)
    (unit : unitsInOne * factor = x.denominator) :
    nearestRank x.numerator x.denominator = rank := by
  have same : x.numerator * unitsInOne = units rank * x.denominator := by
    rw [Scientific.numerator_of_nonpos nonpos, digits, ← unit, Nat.mul_assoc, Nat.mul_comm factor]
  rw [nearestRank_congr x.denominator_pos unitsInOne_pos same, nearestRank_units]

/-- A unit in decimal: all of its places, and the digits that they need. -/
theorem exists_unit_places (rank : Nat) : ∃ places, unitsInOne = 1 <<< places ∧
    allDigits rank = ⟨units rank * Nat.pow 5 places, -(places : Int)⟩ := by
  unfold allDigits unitsInOne
  -- The number of places is kept abstract, for its power must not be computed.
  generalize number : (1074 : Nat) = places
  generalize exponent : (-1074 : Int) = e
  refine ⟨places, rfl, ?_⟩
  congr 1
  omega

/-- Every digit of a magnitude is enough: a unit divides a power of ten. -/
theorem nearestRank_allDigits (rank : Nat) :
    nearestRank (allDigits rank).numerator (allDigits rank).denominator = rank := by
  obtain ⟨places, unit, digits⟩ := exists_unit_places rank
  have scale : 1 <<< places * Nat.pow 5 places = Nat.pow 10 places := by
    rw [Nat.one_shiftLeft]
    exact (Nat.mul_pow 2 5 places).symm
  rw [digits]
  refine nearestRank_of_units rfl (by simp) ?_
  rw [Scientific.denominator_of_neg rfl, unit, scale]

/-- The shortest digits of a magnitude round back to it. -/
theorem nearestRank_shortest (tie : Tie) (rank : Nat) :
    nearestRank (shortest tie rank).numerator (shortest tie rank).denominator = rank := by
  unfold shortest
  split
  · subst rank
    exact nearestRank_zero Nat.one_pos
  · simp only
    rw [Scientific.nearestRank_trim]
    generalize hit : List.findSome? _ _ = found
    cases found with
    | none => exact nearestRank_allDigits rank
    | some x =>
      obtain ⟨i, -, h⟩ := List.exists_of_findSome?_eq_some hit
      exact readsBack_iff.mp (readsBack_of_onGrid h)

/-- A text of digits alone is a whole number. -/
theorem readDecimal_digits {cs : List Char} (nonempty : cs ≠ []) (digits : ∀ c ∈ cs, c.isDigit) :
    readDecimal cs = some ⟨Decimal.ofChars cs, 0⟩ := by
  have whole : cs.takeWhile Char.isDigit = cs := by
    simpa using @List.takeWhile_append_of_pos _ _ _ [] digits
  have rest : cs.dropWhile Char.isDigit = [] := by
    simpa using @List.dropWhile_append_of_pos _ _ _ [] digits
  simp [readDecimal, whole, rest, nonempty, readScale]

/-- The digits behind a point count for the number and for its exponent. -/
theorem readDecimal_point {cs ds : List Char} (nonempty : cs ≠ []) (digits : ∀ c ∈ cs, c.isDigit)
    (digits' : ∀ d ∈ ds, d.isDigit) :
    readDecimal (cs ++ '.' :: ds) = some ⟨Decimal.ofChars (cs ++ ds), -(ds.length : Int)⟩ := by
  have whole : (cs ++ '.' :: ds).takeWhile Char.isDigit = cs := by
    rw [List.takeWhile_append_of_pos digits, List.takeWhile_cons_of_neg (by decide),
      List.append_nil]
  have rest : (cs ++ '.' :: ds).dropWhile Char.isDigit = '.' :: ds := by
    rw [List.dropWhile_append_of_pos digits, List.dropWhile_cons_of_neg (by decide)]
  have fraction : ds.takeWhile Char.isDigit = ds := by
    simpa using @List.takeWhile_append_of_pos _ _ _ [] digits'
  have nothing : ds.dropWhile Char.isDigit = [] := by
    simpa using @List.dropWhile_append_of_pos _ _ _ [] digits'
  simp [readDecimal, whole, rest, fraction, nothing, nonempty, readScale]

theorem chars_ne_nil (n : Nat) : Decimal.chars n ≠ [] := by
  have := Decimal.digits_length_pos n
  intro h
  rw [Decimal.chars, List.map_eq_nil_iff] at h
  rw [h] at this
  exact absurd this (by decide)

/-- Positional text is read as the same magnitude, with zeros put behind the digits in the place of
a positive exponent. -/
theorem readDecimal_positional (x : Scientific) :
    readDecimal x.positional =
      some ⟨x.digits * Nat.pow 10 x.exponent.toNat, min x.exponent 0⟩ := by
  obtain ⟨n, exponent⟩ := x
  have isDigit {c : Char} (h : c ∈ Decimal.chars n) : c.isDigit = true := Decimal.chars_isDigit h
  have zero {c : Char} {k : Nat} (h : c ∈ List.replicate k '0') : c.isDigit = true := by
    rw [List.eq_of_mem_replicate h]; decide
  simp only [Scientific.positional]
  split
  · rename_i whole
    rw [readDecimal_digits (by simp [chars_ne_nil]), Decimal.ofChars_append_zeros,
      Decimal.ofChars_chars, Int.min_eq_right whole]
    intro c hc
    rcases List.mem_append.mp hc with h | h
    · exact isDigit h
    · exact zero h
  · rename_i negative
    have places : exponent.toNat = 0 := by omega
    have same : n * Nat.pow 10 exponent.toNat = n := by rw [places]; exact Nat.mul_one n
    rw [same, Int.min_eq_left (by omega)]
    split
    · rename_i inside
      rw [readDecimal_point, List.take_append_drop, Decimal.ofChars_chars]
      · congr 2
        simp only [List.length_drop]
        omega
      · intro h
        have := congrArg List.length h
        simp only [List.length_take, List.length_nil] at this
        omega
      · exact fun c hc => isDigit (List.mem_of_mem_take hc)
      · exact fun c hc => isDigit (List.mem_of_mem_drop hc)
    · rename_i outside
      have front (zeros : List Char) : '0' :: '.' :: (zeros ++ Decimal.chars n) =
          ['0'] ++ '.' :: (zeros ++ Decimal.chars n) := rfl
      have units : ∀ c ∈ ['0'], c.isDigit := fun c hc => List.mem_singleton.mp hc ▸ rfl
      rw [front, readDecimal_point (by simp) units]
      · rw [← List.append_assoc, show ['0'] ++ List.replicate _ '0' =
          List.replicate (_ + 1) '0' from rfl, Decimal.ofChars_zeros_append, Decimal.ofChars_chars]
        congr 2
        simp only [List.length_append, List.length_replicate]
        omega
      · intro c hc
        rcases List.mem_append.mp hc with h | h
        · exact zero h
        · exact isDigit h

/-- No rank is as large as the largest size that is not cut off. -/
theorem exists_large_size : ∃ size, size = 310 ∧ 1 <<< 1024 ≤ Nat.pow 10 size :=
  ⟨310, rfl, by decide +kernel⟩

/-- Half a unit is larger than the smallest size that is not cut off. -/
theorem exists_small_size : ∃ size, size = 331 ∧ 2 * unitsInOne ≤ Nat.pow 10 size :=
  ⟨331, rfl, by decide +kernel⟩

theorem rankCount_le_of_size {digits k : Nat} (exponent : Int) (lower : Nat.pow 10 k ≤ digits)
    (large : 310 ≤ k + exponent) :
    rankCount ≤ nearestRank (Scientific.numerator ⟨digits, exponent⟩)
      (Scientific.denominator ⟨digits, exponent⟩) := by
  obtain ⟨size, number, bound⟩ := exists_large_size
  refine rankCount_le_nearestRank (Scientific.denominator_pos _) ?_
  simp only [Scientific.numerator, Scientific.denominator]
  generalize 1 <<< 1024 = limit at bound
  calc Nat.pow 10 (-exponent).toNat * limit
      ≤ Nat.pow 10 (-exponent).toNat * Nat.pow 10 size := Nat.mul_le_mul_left _ bound
    _ = Nat.pow 10 ((-exponent).toNat + size) := (Nat.pow_add 10 _ _).symm
    _ ≤ Nat.pow 10 (k + exponent.toNat) := Nat.pow_le_pow_right (by decide) (by omega)
    _ = Nat.pow 10 k * Nat.pow 10 exponent.toNat := Nat.pow_add 10 _ _
    _ ≤ digits * Nat.pow 10 exponent.toNat := Nat.mul_le_mul_right _ lower

theorem nearestRank_eq_zero_of_size {digits k : Nat} {exponent : Int}
    (upper : digits < Nat.pow 10 k) (small : k + exponent ≤ -331) :
    nearestRank (Scientific.numerator ⟨digits, exponent⟩)
      (Scientific.denominator ⟨digits, exponent⟩) = 0 := by
  obtain ⟨size, number, bound⟩ := exists_small_size
  refine nearestRank_eq_zero ?_
  simp only [Scientific.numerator, Scientific.denominator]
  have positive := unitsInOne_pos
  generalize unitsInOne = unit at bound positive
  calc 2 * (digits * Nat.pow 10 exponent.toNat * unit)
      = digits * (Nat.pow 10 exponent.toNat * (2 * unit)) := by
        rw [Nat.mul_left_comm 2, Nat.mul_assoc]
    _ < Nat.pow 10 k * (Nat.pow 10 exponent.toNat * (2 * unit)) :=
        Nat.mul_lt_mul_of_pos_right upper
          (Nat.mul_pos (Scientific.pow_ten_pos _) (Nat.mul_pos (by decide) positive))
    _ ≤ Nat.pow 10 k * (Nat.pow 10 exponent.toNat * Nat.pow 10 size) :=
        Nat.mul_le_mul_left _ (Nat.mul_le_mul_left _ bound)
    _ = Nat.pow 10 (k + (exponent.toNat + size)) := by
        rw [show Nat.pow 10 (k + (exponent.toNat + size)) =
          Nat.pow 10 k * Nat.pow 10 (exponent.toNat + size) from Nat.pow_add 10 _ _,
          show Nat.pow 10 (exponent.toNat + size) = Nat.pow 10 exponent.toNat * Nat.pow 10 size
            from Nat.pow_add 10 _ _]
    _ ≤ Nat.pow 10 (-exponent).toNat := Nat.pow_le_pow_right (by decide) (by omega)

/-- Digits that round to a rank are read as its number: none are cut off for their size. -/
theorem ofDecimal_eq {negative : Bool} {digits rank : Nat} {exponent : Int}
    (h : rank < rankCount) (positive : rank ≠ 0)
    (reads : nearestRank (Scientific.numerator ⟨digits, exponent⟩)
      (Scientific.denominator ⟨digits, exponent⟩) = rank) :
    ofDecimal negative digits exponent = .finite negative ⟨rank, h⟩ := by
  have nonzero : digits ≠ 0 := by
    rintro rfl
    rw [Scientific.numerator, Nat.zero_mul,
      nearestRank_zero (Scientific.denominator_pos _)] at reads
    exact positive reads.symm
  obtain ⟨k, length, lower, upper⟩ := Decimal.digits_span nonzero
  have notLarge : ¬(310 : Int) < (Decimal.digits digits).length + exponent := by
    intro large
    have := rankCount_le_of_size exponent lower (by omega)
    omega
  have notSmall : ¬((Decimal.digits digits).length + exponent : Int) < -330 := by
    intro small
    exact positive (reads.symm.trans (nearestRank_eq_zero_of_size upper (by omega)))
  have ratio : ofRatio negative (Scientific.numerator ⟨digits, exponent⟩)
      (Scientific.denominator ⟨digits, exponent⟩) = .finite negative ⟨rank, h⟩ := by
    rw [ofRatio, reads, ofRank, dif_pos h]
  simp only [ofDecimal]
  rw [if_neg nonzero, if_neg notLarge, if_neg notSmall]
  split
  · rename_i sign
    rwa [Scientific.denominator, show (-exponent).toNat = 0 by omega] at ratio
  · rename_i sign
    rwa [Scientific.numerator_of_nonpos (x := ⟨digits, exponent⟩) (by simp only; omega)] at ratio

/-- The digits of a positional text round as the magnitude does. -/
theorem nearestRank_positional (x : Scientific) :
    nearestRank (Scientific.numerator ⟨x.digits * Nat.pow 10 x.exponent.toNat, min x.exponent 0⟩)
        (Scientific.denominator ⟨x.digits * Nat.pow 10 x.exponent.toNat, min x.exponent 0⟩) =
      nearestRank x.numerator x.denominator := by
  have numerator : Scientific.numerator
      ⟨x.digits * Nat.pow 10 x.exponent.toNat, min x.exponent 0⟩ = x.numerator :=
    Scientific.numerator_of_nonpos (Int.min_le_right x.exponent 0)
  have denominator : Scientific.denominator
      ⟨x.digits * Nat.pow 10 x.exponent.toNat, min x.exponent 0⟩ = x.denominator := by
    simp only [Scientific.denominator]
    congr 1
    omega
  rw [numerator, denominator]

theorem digit_of_positional (x : Scientific) :
    ∃ c cs, x.positional = c :: cs ∧ c.isDigit = true := by
  have nonempty : ∃ c cs, Decimal.chars x.digits = c :: cs ∧ c.isDigit = true := by
    obtain ⟨c, cs, h⟩ := List.exists_cons_of_ne_nil (chars_ne_nil x.digits)
    exact ⟨c, cs, h, Decimal.chars_isDigit (h ▸ List.mem_cons_self)⟩
  obtain ⟨c, cs, h, digit⟩ := nonempty
  simp only [Scientific.positional]
  split
  · exact ⟨c, _, by rw [h]; rfl, digit⟩
  · split
    · rename_i inside
      obtain ⟨k, hk⟩ : ∃ k, (Decimal.chars x.digits).length - (-x.exponent).toNat = k + 1 :=
        ⟨_, (Nat.succ_pred_eq_of_pos (by omega)).symm⟩
      exact ⟨c, _, by rw [hk, h]; rfl, digit⟩
    · exact ⟨'0', _, rfl, by decide⟩

theorem toLower_of_isDigit {c : Char} (digit : c.isDigit = true) : c.toLower = c := by
  rw [Char.isDigit_iff_toNat] at digit
  have upper : c.toNat ≤ 57 := digit.2
  unfold Char.toLower
  refine dif_neg fun letter => ?_
  have : 65 ≤ c.toNat := letter.1
  omega

/-- A text that starts with a digit has no sign and is no name. -/
theorem parse?_of_digit {negative : Bool} {c : Char} {cs : List Char} (digit : c.isDigit = true) :
    parse? (String.ofList (signed negative (c :: cs))) =
      (readDecimal (c :: cs)).map fun x => ofDecimal negative x.digits x.exponent := by
  have sign : splitSign (signed negative (c :: cs)) = (negative, c :: cs) := by
    cases negative with
    | true => rfl
    | false =>
      have minus : c ≠ '-' := by rintro rfl; revert digit; decide
      have plus : c ≠ '+' := by rintro rfl; revert digit; decide
      simp [signed, splitSign, minus, plus]
  have name {d : Char} {ds : List Char} (letter : d.isDigit = false) :
      (c :: cs).map Char.toLower ≠ d :: ds := by
    intro h
    rw [List.map_cons, toLower_of_isDigit digit] at h
    rw [(List.cons.inj h).1, letter] at digit
    cases digit
  have nan : "nan".toList = ['n', 'a', 'n'] := rfl
  have inf : "inf".toList = ['i', 'n', 'f'] := rfl
  have infinity : "infinity".toList = ['i', 'n', 'f', 'i', 'n', 'i', 't', 'y'] := rfl
  simp only [parse?, String.toList_ofList, sign, nan, inf, infinity]
  rw [if_neg (name rfl), if_neg (not_or.mpr ⟨name rfl, name rfl⟩)]

/-- A floating point number is read back from its text. -/
theorem parse?_text (x : Binary64) : parse? x.text = some x := by
  cases x with
  | nan => decide
  | infinite negative => cases negative <;> decide
  | finite negative rank =>
    obtain ⟨c, cs, text, digit⟩ := digit_of_positional (shortest .upward rank)
    have read := readDecimal_positional (shortest .upward rank)
    rw [Binary64.text, text, parse?_of_digit digit, ← text, read]
    by_cases zero : rank.val = 0
    · obtain rfl : rank = ⟨0, by decide⟩ := Fin.ext zero
      rfl
    · simp only [Option.map_some]
      rw [ofDecimal_eq rank.isLt zero]
      rw [nearestRank_positional, nearestRank_shortest]

end Binary64

end ShapedGraph

import ShapedGraph.Json.Reader
import ShapedGraph.Proofs.Scalar

/-! Numbers without a fraction and an exponent, from their text in a document to the integer of 64
bits that a property holds. An integer that no 64 bits hold is a floating point number by the time
it is decoded, so what it was rounded to decides whether it is refused. That is the number nearest
to the integer only if its digits fit 64 bits, but longer ones are too large in any case. -/

namespace ShapedGraph

/-! ## Integers as floating point numbers -/

namespace Binary64

theorem toInt?_eq_some_iff {negative : Bool} {rank : Fin rankCount} {n : Int} :
    toInt? (.finite negative rank) = some n ↔
      ∃ m : Nat, units rank = m * unitsInOne ∧ n = if negative then -(m : Int) else m := by
  simp only [toInt?]
  constructor
  · intro h
    split at h
    · rename_i whole
      exact ⟨_, (Nat.div_mul_cancel (Nat.dvd_of_mod_eq_zero whole)).symm, (Option.some.inj h).symm⟩
    · cases h
  · rintro ⟨m, count, rfl⟩
    rw [count, Nat.mul_mod_left, if_pos rfl, Nat.mul_div_cancel _ unitsInOne_pos]

/-- The rank of `2 ^ 63`, to which integers up to 1024 above it are rounded. -/
theorem exists_rank_of_limit : ∃ rank, rank < rankCount ∧
    nearestRank 9223372036854775808 1 = rank ∧ nearestRank 9223372036854776832 1 = rank ∧
      nearestRank 9223372036854776833 1 = rank + 1 ∧
        units rank = 9223372036854775808 * unitsInOne :=
  ⟨1086 * binadeSize, by decide +kernel⟩

variable {negative : Bool} {m : Nat}

theorem toInt?_ofRatio_of_le (lower : 9223372036854775808 ≤ m) (upper : m ≤ 9223372036854776832) :
    (ofRatio negative m 1).toInt? =
      some (if negative then -9223372036854775808 else 9223372036854775808) := by
  obtain ⟨rank, inside, first, last, -, count⟩ := exists_rank_of_limit
  have same : nearestRank m 1 = rank := by
    have := nearestRank_mono 1 lower
    have := nearestRank_mono 1 upper
    omega
  rw [ofRatio, same, ofRank, dif_pos inside]
  exact toInt?_eq_some_iff.mpr ⟨_, count, rfl⟩

/-- The number is no integer, or one that is further from zero than `2 ^ 63`. -/
def IsPastLimit (negative : Bool) (x : Binary64) : Prop :=
  ∀ n, x.toInt? = some n →
    ∃ k : Nat, 9223372036854775808 < k ∧ n = if negative then -(k : Int) else k

theorem isPastLimit_ofRank {rank : Nat} (past : nearestRank 9223372036854775808 1 < rank) :
    (ofRank negative rank).IsPastLimit negative := by
  obtain ⟨limit, -, first, -, -, count⟩ := exists_rank_of_limit
  intro n whole
  unfold ofRank at whole
  split at whole
  · obtain ⟨k, units, rfl⟩ := toInt?_eq_some_iff.mp whole
    refine ⟨k, Nat.lt_of_mul_lt_mul_right (a := unitsInOne) ?_, rfl⟩
    rw [← count, ← units]
    exact units_lt_units (first ▸ past)
  · cases whole

/-- Integers further above `2 ^ 63` are rounded to something larger. -/
theorem isPastLimit_ofRatio (large : 9223372036854776832 < m) :
    (ofRatio negative m 1).IsPastLimit negative := by
  obtain ⟨rank, -, first, -, next, -⟩ := exists_rank_of_limit
  have := nearestRank_mono 1 (show 9223372036854776833 ≤ m from large)
  exact isPastLimit_ofRank (by omega)

/-! ## Numbers that are put together -/

theorem product_mono {a a' b b' : Nat} (h : a ≤ a') (h' : b ≤ b') : product a b ≤ product a' b' :=
  nearestRank_mono _ (Nat.mul_le_mul (units_le_units h) (units_le_units h'))

/-- Without a power of ten the digits are rounded to the nearest number. -/
theorem ofScaled_zero (negative : Bool) (digits : Nat) :
    ofScaled negative digits 0 = ofRatio negative digits 1 := by
  have one : units (powerOfTen 0) = unitsInOne := by decide +kernel
  have same : product (nearestRank digits 1) (powerOfTen 0) = nearestRank digits 1 := by
    rw [product, one, nearestRank_mul_right _ _ unitsInOne_pos, nearestRank_units]
  simp only [ofScaled]
  rw [if_pos (Int.le_refl 0), if_pos (by decide), Int.toNat_zero, same, ofRatio]

/-- The digits that fit 64 bits make a number that a power of ten takes far above `2 ^ 63`. -/
theorem isPastLimit_ofScaled {digits : Nat} {exponent : Int} (many : 1844674407370955161 ≤ digits)
    (raised : 1 ≤ exponent) : (ofScaled negative digits exponent).IsPastLimit negative := by
  have least := nearestRank_mono 1 many
  have power : powerOfTen 1 ≤ powerOfTen exponent.toNat :=
    nearestRank_mono 1 (Nat.pow_le_pow_right (by decide) (by omega))
  obtain ⟨nonzero, past⟩ : nearestRank 1844674407370955161 1 ≠ 0 ∧
      nearestRank 9223372036854775808 1 <
        product (nearestRank 1844674407370955161 1) (powerOfTen 1) := by decide +kernel
  simp only [ofScaled]
  rw [if_pos (by omega)]
  split
  · exact isPastLimit_ofRank (Nat.lt_of_lt_of_le past (product_mono least power))
  · rw [if_neg (by omega)]
    exact nofun

end Binary64

theorem Scalar.integerOfFloat_ne_ok {path : Path} {negative : Bool} {x : Binary64} {word : Int64}
    (past : x.IsPastLimit negative) : integerOfFloat path x ≠ .ok word := by
  have least : Int64.minValue.toInt = -9223372036854775808 := by decide
  have lower := Int64.minValue_le_toInt word
  have upper := Int64.toInt_lt word
  intro whole
  obtain ⟨k, large, same⟩ := past _ (integerOfFloat_eq_ok_iff.mp whole)
  split at same <;> omega

/-- Of the floating point numbers nearest to integers from `2 ^ 63` on, the least of the negative
ones is the only one that fits 64 bits. -/
theorem Scalar.integerOfFloat_ofRatio {path : Path} {negative : Bool} {m : Nat} {word : Int64}
    (large : 9223372036854775808 ≤ m) :
    integerOfFloat path (.ofRatio negative m 1) = .ok word ↔
      negative = true ∧ m ≤ 9223372036854776832 ∧ word = Int64.minValue := by
  have least : Int64.minValue.toInt = -9223372036854775808 := by decide
  have upper := Int64.toInt_lt word
  by_cases near : m ≤ 9223372036854776832
  · rw [integerOfFloat_eq_ok_iff, ← Int64.toInt_inj, Binary64.toInt?_ofRatio_of_le large near,
      Option.some_inj]
    cases negative with
    | true => simp [near, least, eq_comm]
    | false => simp; omega
  · refine iff_of_false (integerOfFloat_ne_ok (Binary64.isPastLimit_ofRatio (by omega))) ?_
    rintro ⟨-, near', -⟩
    exact near near'

/-! ## Numerals -/

/-- A numeral without a fraction and an exponent: perhaps a minus sign, and digits of which a
leading zero stands alone. -/
structure WholeNumeral where
  negative : Bool
  digits : List Char
  nonempty : digits ≠ []
  isDigit : ∀ c ∈ digits, c.isDigit = true
  alone : digits.head? = some '0' → digits = ['0']

namespace WholeNumeral

def chars (numeral : WholeNumeral) : List Char :=
  Binary64.signed numeral.negative numeral.digits

def magnitude (numeral : WholeNumeral) : Nat := Decimal.ofChars numeral.digits

/-- The integer that the numeral denotes. -/
def value (numeral : WholeNumeral) : Int :=
  if numeral.negative then -(numeral.magnitude : Int) else numeral.magnitude

end WholeNumeral

namespace Json

/-- A number does not go on with this text: neither with a digit nor with a fraction or an
exponent. -/
def EndsNumeral (rest : List Char) : Prop :=
  ∀ c, rest.head? = some c → c.isDigit = false ∧ c ≠ '.' ∧ c ≠ 'e' ∧ c ≠ 'E'

variable {rest : List Char}

theorem EndsNumeral.takeWhile (ends : EndsNumeral rest) : rest.takeWhile Char.isDigit = [] := by
  cases rest with
  | nil => rfl
  | cons c cs => exact List.takeWhile_cons_of_neg (by simp [(ends c rfl).1])

theorem EndsNumeral.readFraction (ends : EndsNumeral rest) :
    readFraction rest = some ([], rest) := by
  cases rest with
  | nil => rfl
  | cons c cs =>
    unfold Json.readFraction
    split
    · rename_i same
      exact absurd (List.cons.inj same).1 (ends c rfl).2.1
    · rfl

theorem EndsNumeral.readExponent (ends : EndsNumeral rest) :
    readExponent rest = some (none, rest) := by
  cases rest with
  | nil => rfl
  | cons c cs =>
    obtain ⟨-, -, small, large⟩ := ends c rfl
    exact if_neg (not_or.mpr ⟨small, large⟩)

theorem readUnsigned_whole (ends : EndsNumeral rest) (negative : Bool) {digits : List Char}
    (nonempty : digits ≠ []) (isDigit : ∀ c ∈ digits, c.isDigit = true)
    (alone : digits.head? = some '0' → digits = ['0']) :
    readUnsigned negative (digits ++ rest) =
      (number? negative digits [] none).map fun json => (json, rest) := by
  have whole : (digits ++ rest).takeWhile Char.isDigit = digits := by
    rw [List.takeWhile_append_of_pos isDigit, ends.takeWhile, List.append_nil]
  have drop (ds : List Char) : (ds ++ rest).drop ds.length = rest := List.drop_left
  simp only [readUnsigned, whole]
  split
  · exact absurd rfl nonempty
  · rw [alone rfl]
    simp only [Option.bind_eq_bind, Option.bind_some, drop, ends.readFraction, ends.readExponent]
    cases number? negative ['0'] [] none <;> rfl
  · simp only [Option.bind_eq_bind, Option.bind_some, drop, ends.readFraction, ends.readExponent]
    cases number? negative digits [] none <;> rfl

/-- Digits that fit 64 bits are all taken. -/
theorem absorb_of_lt {n : Nat} {cs : List Char}
    (fits : Decimal.extend n (cs.map Decimal.charDigit) < UInt64.size) :
    absorb n cs = (Decimal.extend n (cs.map Decimal.charDigit), []) := by
  induction cs generalizing n with
  | nil => rfl
  | cons c cs ih =>
    have more := Decimal.le_extend (10 * n + Decimal.charDigit c) (cs.map Decimal.charDigit)
    simp only [absorb]
    rw [if_pos (Nat.lt_of_le_of_lt more fits)]
    exact ih fits

/-- Of digits that do not fit 64 bits some are left, and one more would have been too many. -/
theorem absorb_of_le {n : Nat} {cs : List Char} (small : n < UInt64.size)
    (isDigit : ∀ c ∈ cs, c.isDigit = true)
    (large : UInt64.size ≤ Decimal.extend n (cs.map Decimal.charDigit)) :
    ∃ m left, absorb n cs = (m, left) ∧ left ≠ [] ∧ UInt64.size ≤ 10 * m + 9 := by
  induction cs generalizing n with
  | nil => exact absurd small (Nat.not_lt.mpr large)
  | cons c cs ih =>
    obtain ⟨digit, others⟩ := List.forall_mem_cons.mp isDigit
    simp only [absorb]
    split
    · rename_i fits
      exact ih fits others large
    · rename_i full
      have := Decimal.charDigit_lt digit
      exact ⟨n, c :: cs, rfl, nofun, by omega⟩

theorem rounded_whole_of_lt {negative : Bool} {digits : List Char}
    (fits : Decimal.ofChars digits < UInt64.size) :
    rounded negative digits [] 0 = .ofRatio negative (Decimal.ofChars digits) 1 := by
  have all : absorb 0 digits = (Decimal.ofChars digits, []) := absorb_of_lt fits
  simp only [rounded, all, absorb]
  exact Binary64.ofScaled_zero negative _

/-- With a fraction the digits and the quotient are both rounded, and the nearest number may be
missed: this decimal is halfway between two and would go to the smaller one. -/
example : rounded false "9007199254740993".toList ['0'] 0 = .ofRatio false 9007199254740994 1 := by
  decide +kernel

theorem isPastLimit_rounded_whole {negative : Bool} {digits : List Char}
    (isDigit : ∀ c ∈ digits, c.isDigit = true) (large : UInt64.size ≤ Decimal.ofChars digits) :
    (rounded negative digits [] 0).IsPastLimit negative := by
  have size : UInt64.size = 18446744073709551616 := rfl
  obtain ⟨m, left, taken, some, full⟩ := absorb_of_le (by decide) isDigit large
  have length := List.length_pos_iff.mpr some
  simp only [rounded, taken, absorb, List.length_nil]
  exact Binary64.isPastLimit_ofScaled (by omega) (by omega)

theorem readValue_number (steps depth : Nat) {c : Char} (cs : List Char)
    (start : c = '-' ∨ c.isDigit = true) :
    readValue (steps + 1) depth (c :: cs) = readNumber (c :: cs) := by
  rw [readValue]
  all_goals
    intros
    rename_i same
    cases same
    revert start
    decide

/-- A numeral is read in full, and nothing behind it. -/
theorem readValue_chars (numeral : WholeNumeral) (ends : EndsNumeral rest) (steps depth : Nat) :
    readValue (steps + 1) depth (numeral.chars ++ rest) =
      (number? numeral.negative numeral.digits [] none).map fun json => (json, rest) := by
  obtain ⟨negative, digits, nonempty, isDigit, alone⟩ := numeral
  obtain ⟨d, ds, rfl⟩ := List.exists_cons_of_ne_nil nonempty
  have digit : d.isDigit = true := isDigit d List.mem_cons_self
  have unsigned := readUnsigned_whole ends negative nonempty isDigit alone
  cases negative with
  | true => exact (readValue_number steps depth _ (.inl rfl)).trans unsigned
  | false =>
    refine (readValue_number steps depth _ (.inr digit)).trans (Eq.trans ?_ unsigned)
    unfold readNumber
    split
    · rename_i same
      cases same
      cases digit
    · rfl

end Json

namespace WholeNumeral

variable {numeral : WholeNumeral} {path : Path} {word : Int64}

/-- The numeral is read, and the number that it is read as is accepted for this integer. -/
def DecodesTo (numeral : WholeNumeral) (path : Path) (word : Int64) : Prop :=
  ∃ json, Json.number? numeral.negative numeral.digits [] none = some json ∧
    Scalar.decodeInteger path json = .ok word

theorem value_cases (numeral : WholeNumeral) :
    (numeral.negative = true ∧ numeral.value = -(numeral.magnitude : Int)) ∨
      (numeral.negative = false ∧ numeral.value = numeral.magnitude) := by
  unfold value
  cases numeral.negative with
  | true => exact .inl ⟨rfl, rfl⟩
  | false => exact .inr ⟨rfl, rfl⟩

/-- The numeral is kept exactly: as an integer of 64 bits, with or without a sign. -/
def Exact (numeral : WholeNumeral) : Prop :=
  if numeral.negative then
    numeral.magnitude ≠ 0 ∧ Int64.minValue.toInt ≤ -(numeral.magnitude : Int)
  else numeral.magnitude < UInt64.size

theorem decodesTo_iff_of_exact (exact : numeral.Exact) : numeral.DecodesTo path word ↔
    Scalar.decodeInteger path (.integer numeral.value) = .ok word := by
  have read : Json.number? numeral.negative numeral.digits [] none =
      some (.integer numeral.value) := if_pos ⟨rfl, rfl, exact⟩
  simp [DecodesTo, read]

theorem decodesTo_iff_of_not_exact (rounded : ¬numeral.Exact) : numeral.DecodesTo path word ↔
    Scalar.integerOfFloat path (Json.rounded numeral.negative numeral.digits [] 0) = .ok word := by
  unfold DecodesTo Json.number?
  simp only
  rw [if_neg fun exact => rounded exact.2.2, Option.getD_none]
  cases Json.rounded numeral.negative numeral.digits [] 0 with
  | nan => simp [Scalar.decodeInteger]
  | infinite => simp [Scalar.integerOfFloat_eq_ok_iff, Binary64.toInt?]
  | finite => simp [Scalar.decodeInteger]

/-- The numeral is rounded to the nearest number if its digits fit 64 bits. -/
theorem decodesTo_iff_of_rounded (rounded : ¬numeral.Exact)
    (fits : numeral.magnitude < UInt64.size) : numeral.DecodesTo path word ↔
      Scalar.integerOfFloat path (.ofRatio numeral.negative numeral.magnitude 1) = .ok word := by
  rw [decodesTo_iff_of_not_exact rounded, Json.rounded_whole_of_lt fits, magnitude]

theorem not_decodesTo_of_long (long : UInt64.size ≤ numeral.magnitude) :
    ¬numeral.DecodesTo path word := by
  have least : Int64.minValue.toInt = -9223372036854775808 := by decide
  have size : UInt64.size = 18446744073709551616 := rfl
  have rounded : ¬numeral.Exact := by
    unfold Exact
    split <;> omega
  rw [decodesTo_iff_of_not_exact rounded]
  exact Scalar.integerOfFloat_ne_ok (Json.isPastLimit_rounded_whole numeral.isDigit long)

theorem decodesTo_iff_of_small (small : Int64.minValue.toInt ≤ numeral.value)
    (small' : numeral.value ≤ Int64.maxValue.toInt) :
    numeral.DecodesTo path word ↔ word.toInt = numeral.value := by
  have least : Int64.minValue.toInt = -9223372036854775808 := by decide
  have most : Int64.maxValue.toInt = 9223372036854775807 := by decide
  have size : UInt64.size = 18446744073709551616 := rfl
  by_cases exact : numeral.Exact
  · rw [decodesTo_iff_of_exact exact, ← Scalar.toInt64?_eq_some_iff, Scalar.decodeInteger]
    obtain ⟨word', fits⟩ : ∃ word', Scalar.toInt64? numeral.value = some word' :=
      ⟨_, if_pos ⟨small, small'⟩⟩
    rw [fits]
    simp
  · -- Only the zero with a minus sign is small and not kept exactly.
    have fits : numeral.magnitude < UInt64.size := by
      rcases numeral.value_cases with ⟨-, value⟩ | ⟨-, value⟩ <;> omega
    rw [decodesTo_iff_of_rounded exact fits, Scalar.integerOfFloat_eq_ok_iff]
    unfold Exact at exact
    unfold value at small small' ⊢
    split at exact
    · rename_i negative
      rw [if_pos negative] at small small' ⊢
      have zero : numeral.magnitude = 0 := by omega
      have nothing : (Binary64.ofRatio true 0 1).toInt? = some 0 := by decide +kernel
      rw [negative, zero, nothing, Option.some_inj]
      exact eq_comm
    · rename_i positive
      rw [if_neg positive] at small small'
      omega

theorem decodesTo_iff_of_large
    (large : numeral.value < Int64.minValue.toInt ∨ Int64.maxValue.toInt < numeral.value) :
    numeral.DecodesTo path word ↔
      word = Int64.minValue ∧ Int64.minValue.toInt - 1024 ≤ numeral.value ∧
        numeral.value < Int64.minValue.toInt := by
  have least : Int64.minValue.toInt = -9223372036854775808 := by decide
  have most : Int64.maxValue.toInt = 9223372036854775807 := by decide
  have size : UInt64.size = 18446744073709551616 := rfl
  have past : 9223372036854775808 ≤ numeral.magnitude := by
    rcases numeral.value_cases with ⟨-, value⟩ | ⟨-, value⟩ <;> omega
  by_cases fits : numeral.magnitude < UInt64.size
  case neg =>
    -- What the digits beyond 64 bits were rounded to does not matter: it is too large.
    refine iff_of_false (not_decodesTo_of_long (Nat.le_of_not_lt fits)) ?_
    rcases numeral.value_cases with ⟨-, value⟩ | ⟨-, value⟩ <;> omega
  have decoded : numeral.DecodesTo path word ↔ Scalar.integerOfFloat path
      (.ofRatio numeral.negative numeral.magnitude 1) = .ok word := by
    by_cases exact : numeral.Exact
    · -- Exact but beyond the signed range: the number nearest to it takes its place.
      rcases numeral.value_cases with ⟨sign, value⟩ | ⟨sign, value⟩
      · have := (if_pos sign).mp exact
        omega
      · have beyond : Scalar.toInt64? (numeral.magnitude : Int) = none := if_neg (by omega)
        have nearest : Binary64.ofInt (numeral.magnitude : Int) =
            .ofRatio false numeral.magnitude 1 := by
          rw [Binary64.ofInt, Int.natAbs_natCast, decide_eq_false (by omega)]
        rw [decodesTo_iff_of_exact exact, sign, value, Scalar.decodeInteger, beyond, nearest]
    · exact decodesTo_iff_of_rounded exact fits
  rw [decoded, Scalar.integerOfFloat_ofRatio past]
  rcases numeral.value_cases with ⟨sign, value⟩ | ⟨sign, value⟩
  · have near : numeral.magnitude ≤ 9223372036854776832 ↔
        Int64.minValue.toInt - 1024 ≤ numeral.value ∧ numeral.value < Int64.minValue.toInt := by
      omega
    rw [near, and_iff_right sign, and_comm]
  · have positive : ¬numeral.value < Int64.minValue.toInt := by omega
    simp only [sign, positive, Bool.false_eq_true, false_and, and_false]

/-- A numeral is accepted for the integer that it denotes, and refused if that does not fit 64 bits;
but numerals less than the least integer by at most 1024 are accepted for the least. -/
theorem exists_decodeInteger_iff_value {rest : List Char} (numeral : WholeNumeral)
    (ends : Json.EndsNumeral rest) (steps depth : Nat) (path : Path) (word : Int64) :
    (∃ json, Json.readValue (steps + 1) depth (numeral.chars ++ rest) = some (json, rest) ∧
        Scalar.decodeInteger path json = .ok word) ↔
      word.toInt = numeral.value ∨
        (word = Int64.minValue ∧ Int64.minValue.toInt - 1024 ≤ numeral.value ∧
          numeral.value < Int64.minValue.toInt) := by
  have read : (∃ json, Json.readValue (steps + 1) depth (numeral.chars ++ rest) =
      some (json, rest) ∧ Scalar.decodeInteger path json = .ok word) ↔
        numeral.DecodesTo path word := by
    simp [Json.readValue_chars numeral ends, DecodesTo]
  have lower := Int64.minValue_le_toInt word
  have upper := Int64.toInt_le word
  rw [read]
  by_cases small : Int64.minValue.toInt ≤ numeral.value ∧ numeral.value ≤ Int64.maxValue.toInt
  · rw [decodesTo_iff_of_small small.1 small.2]
    exact (or_iff_left (by omega)).symm
  · rw [decodesTo_iff_of_large (by omega)]
    exact (or_iff_right (by omega)).symm

end WholeNumeral

namespace Sample

/-- The numeral of the integer just below the least of 64 bits. -/
def belowLeast : WholeNumeral where
  negative := true
  digits := "9223372036854775809".toList
  nonempty := by decide
  isDigit := List.all_eq_true.mp rfl
  alone := by decide

/-- The numeral of the largest integer of 64 bits. -/
def largest : WholeNumeral where
  negative := false
  digits := "9223372036854775807".toList
  nonempty := by decide
  isDigit := List.all_eq_true.mp rfl
  alone := by decide

theorem largest_accepted : Json.EndsNumeral [','] ∧ ∃ json,
    Json.readValue 1 0 (largest.chars ++ [',']) = some (json, [',']) ∧
      Scalar.decodeInteger .root json = .ok Int64.maxValue := by
  have ends : Json.EndsNumeral [','] := by simp [Json.EndsNumeral]
  exact ⟨ends, (WholeNumeral.exists_decodeInteger_iff_value largest ends 0 0 .root _).mpr
    (.inl (by decide))⟩

/-- The integer below the least is not refused: it is read as a floating point number, which is the
least integer, and accepted for that. -/
theorem belowLeast_altered : belowLeast.value = -9223372036854775809 ∧ ∃ json,
    Json.readValue 1 0 belowLeast.chars = some (json, []) ∧
      Scalar.decodeInteger .root json = .ok Int64.minValue ∧
        Int64.minValue.toInt ≠ belowLeast.value := by
  have value : belowLeast.value = -9223372036854775809 := by decide
  have large : belowLeast.DecodesTo .root Int64.minValue :=
    (WholeNumeral.decodesTo_iff_of_large (.inl (by decide))).mpr (by decide)
  obtain ⟨json, read, decoded⟩ := large
  have ends : Json.EndsNumeral [] := by simp [Json.EndsNumeral]
  have all := Json.readValue_chars belowLeast ends 0 0
  rw [List.append_nil, read] at all
  exact ⟨value, json, all, decoded, by decide⟩

end Sample

end ShapedGraph

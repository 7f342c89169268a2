/-! Decimal digits: the digits of a natural number and the number that digits write. Digits stand
most significant first. -/

namespace ShapedGraph.Decimal

/-- The digits of `n` in front of `done`; the first argument bounds how many steps are taken. -/
def digitsBefore : Nat → Nat → List Nat → List Nat
  | 0, n, done => n :: done
  | steps + 1, n, done =>
    if n < 10 then n :: done else digitsBefore steps (n / 10) (n % 10 :: done)

/-- The digits of `n`; zero has one digit. -/
def digits (n : Nat) : List Nat := digitsBefore n n []

/-- The number that digits write, with `n` written in front of them. -/
def extend (n : Nat) (ds : List Nat) : Nat := ds.foldl (fun value d => 10 * value + d) n

def value (ds : List Nat) : Nat := extend 0 ds

def digitChar (d : Nat) : Char := Char.ofNat (48 + d)

def charDigit (c : Char) : Nat := c.toNat - 48

def ofChars (cs : List Char) : Nat := value (cs.map charDigit)

def chars (n : Nat) : List Char := (digits n).map digitChar

theorem extend_digitsBefore {steps n : Nat} (h : n ≤ steps) (done : List Nat) :
    extend 0 (digitsBefore steps n done) = extend n done := by
  induction steps generalizing n done with
  | zero => simp [digitsBefore, extend]
  | succ steps ih =>
    simp only [digitsBefore]
    split
    · simp [extend]
    · rw [ih (by omega)]
      simp only [extend, List.foldl_cons]
      congr 1
      omega

/-- The digits of a number write that number. -/
theorem value_digits (n : Nat) : value (digits n) = n := by
  simpa [value, digits, extend] using extend_digitsBefore (Nat.le_refl n) []

theorem digitsBefore_lt {steps n : Nat} (h : n ≤ steps) {done : List Nat}
    (hd : ∀ d ∈ done, d < 10) : ∀ d ∈ digitsBefore steps n done, d < 10 := by
  induction steps generalizing n done with
  | zero =>
    simp only [digitsBefore, List.mem_cons]
    rintro d (rfl | hm)
    · omega
    · exact hd d hm
  | succ steps ih =>
    simp only [digitsBefore]
    split
    · simp only [List.mem_cons]
      rintro d (rfl | hm)
      · assumption
      · exact hd d hm
    · refine ih (by omega) ?_
      simp only [List.mem_cons]
      rintro d (rfl | hm)
      · omega
      · exact hd d hm

theorem digits_lt {n d : Nat} (h : d ∈ digits n) : d < 10 :=
  digitsBefore_lt (Nat.le_refl n) (by simp) d h

theorem charDigit_digitChar {d : Nat} (h : d < 10) : charDigit (digitChar d) = d := by
  have all : ∀ e < 10, charDigit (digitChar e) = e := by decide
  exact all d h

theorem ofChars_chars (n : Nat) : ofChars (chars n) = n := by
  have same : (digits n).map (charDigit ∘ digitChar) = digits n := by
    rw [List.map_congr_left (g := id), List.map_id]
    intro d hd
    exact charDigit_digitChar (digits_lt hd)
  rw [ofChars, chars, List.map_map, same, value_digits]

end ShapedGraph.Decimal

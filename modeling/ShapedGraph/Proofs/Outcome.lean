import ShapedGraph.Decoding.Error

/-! Computations that give a value or stop at a fault: what it takes for a sequence of them to give
a value. -/

namespace ShapedGraph.Outcome

variable {ε α β γ δ : Type}

theorem bind_eq_ok {x : Except ε α} {f : α → Except ε β} {b : β} :
    x >>= f = .ok b ↔ ∃ a, x = .ok a ∧ f a = .ok b := by
  cases x with
  | error e => exact ⟨nofun, fun ⟨_, h, _⟩ => nomatch h⟩
  | ok a => exact ⟨fun h => ⟨a, rfl, h⟩, fun ⟨_, same, h⟩ => Except.ok.inj same ▸ h⟩

theorem map_eq_ok {x : Except ε α} {f : α → β} {b : β} :
    f <$> x = .ok b ↔ ∃ a, x = .ok a ∧ f a = b := by
  cases x with
  | error e => exact ⟨nofun, fun ⟨_, h, _⟩ => nomatch h⟩
  | ok a =>
    refine ⟨fun h => ⟨a, rfl, Except.ok.inj h⟩, fun ⟨_, same, h⟩ => ?_⟩
    cases same
    rw [← h]
    rfl

theorem exists_map_eq_ok {x : Except ε α} {f : α → β} :
    (∃ b, f <$> x = .ok b) ↔ ∃ a, x = .ok a := by
  simp only [map_eq_ok]
  exact ⟨fun ⟨_, a, h, _⟩ => ⟨a, h⟩, fun ⟨a, h⟩ => ⟨_, a, h, rfl⟩⟩

/-- A list of computations gives a list of values exactly if each of them gives one. -/
theorem exists_map_ok_iff {items : List α} {f : α → Except ε β} :
    (∃ values : List β, items.map f = values.map .ok) ↔
      ∀ item ∈ items, ∃ value, f item = .ok value := by
  induction items with
  | nil => exact ⟨fun _ => nofun, fun _ => ⟨[], rfl⟩⟩
  | cons item items ih =>
    rw [List.forall_mem_cons, ← ih]
    constructor
    · rintro ⟨values, h⟩
      cases values with
      | nil => cases h
      | cons value values =>
        obtain ⟨first, rest⟩ := List.cons.inj h
        exact ⟨⟨value, first⟩, ⟨values, rest⟩⟩
    · rintro ⟨⟨value, first⟩, ⟨values, rest⟩⟩
      exact ⟨value :: values, by rw [List.map_cons, List.map_cons, first, rest]⟩

/-- Computations in another order give their values in that order. -/
theorem exists_perm_of_map_ok {items items' : List α} (perm : items.Perm items')
    {f : α → Except ε β} {values : List β} (h : items.map f = values.map .ok) :
    ∃ values', items'.map f = values'.map .ok ∧ values.Perm values' := by
  induction perm generalizing values with
  | nil => exact ⟨values, h, .rfl⟩
  | cons item _ ih =>
    cases values with
    | nil => cases h
    | cons value values =>
      obtain ⟨first, rest⟩ := List.cons.inj h
      obtain ⟨values', rest', perm'⟩ := ih rest
      exact ⟨value :: values', by rw [List.map_cons, List.map_cons, first, rest'], perm'.cons value⟩
  | swap item item' items =>
    match values with
    | [] => cases h
    | [_] => cases (List.cons.inj h).2
    | value :: value' :: values =>
      obtain ⟨first, rest⟩ := List.cons.inj h
      obtain ⟨second, rest⟩ := List.cons.inj rest
      refine ⟨value' :: value :: values, ?_, .swap value' value values⟩
      rw [List.map_cons, List.map_cons, List.map_cons, List.map_cons, first, second, rest]
  | trans _ _ ih ih' =>
    obtain ⟨values', h', perm'⟩ := ih h
    obtain ⟨values'', h'', perm''⟩ := ih' h'
    exact ⟨values'', h'', perm'.trans perm''⟩

theorem exists_mapM_iff {items : List α} {f : α → Except ε β} :
    (∃ values, items.mapM f = .ok values) ↔ ∀ item ∈ items, ∃ value, f item = .ok value := by
  induction items with
  | nil => exact ⟨fun _ => nofun, fun _ => ⟨[], rfl⟩⟩
  | cons item items ih =>
    rw [List.forall_mem_cons, ← ih, List.mapM_cons]
    constructor
    · rintro ⟨values, h⟩
      obtain ⟨value, first, h⟩ := bind_eq_ok.mp h
      obtain ⟨rest, others, -⟩ := bind_eq_ok.mp h
      exact ⟨⟨value, first⟩, rest, others⟩
    · rintro ⟨⟨value, first⟩, rest, others⟩
      refine ⟨value :: rest, bind_eq_ok.mpr ⟨value, first, ?_⟩⟩
      exact bind_eq_ok.mpr ⟨rest, others, rfl⟩

/-- What holds of all results holds of the result of each step, and the other way round. -/
theorem forall_mem_of_mapM {items : List α} {f : α → Except ε β} {values : List β} {P : β → Prop}
    (made : items.mapM f = .ok values) :
    (∀ value ∈ values, P value) ↔ ∀ item ∈ items, ∃ value, f item = .ok value ∧ P value := by
  induction items generalizing values with
  | nil =>
    cases made
    exact iff_of_true (fun _ there => absurd there List.not_mem_nil)
      fun _ there => absurd there List.not_mem_nil
  | cons item items ih =>
    rw [List.mapM_cons] at made
    obtain ⟨value, first, made⟩ := bind_eq_ok.mp made
    obtain ⟨rest, others, made⟩ := bind_eq_ok.mp made
    cases made
    rw [List.forall_mem_cons, List.forall_mem_cons, ih others]
    refine and_congr_left fun _ => ⟨fun holds => ⟨value, first, holds⟩, ?_⟩
    rintro ⟨other, first', holds⟩
    cases first.symm.trans first'
    exact holds

theorem toOption_eq_some {x : Except ε α} {a : α} : x.toOption = some a ↔ x = .ok a := by
  cases x with
  | error e => exact ⟨nofun, nofun⟩
  | ok b => exact ⟨fun h => congrArg _ (Option.some.inj h), fun h => congrArg _ (Except.ok.inj h)⟩

/-- A sequence stops at a fault of its first step or of the others. -/
theorem bind_eq_error {x : Except ε α} {f : α → Except ε β} {e : ε} :
    x >>= f = .error e ↔ x = .error e ∨ ∃ a, x = .ok a ∧ f a = .error e := by
  cases x with
  | error e' =>
    refine ⟨fun h => .inl (congrArg _ (Except.error.inj h)), fun h => ?_⟩
    rcases h with same | ⟨_, same, -⟩
    · exact congrArg _ (Except.error.inj same)
    · cases same
  | ok a =>
    refine ⟨fun h => .inr ⟨a, rfl, h⟩, fun h => ?_⟩
    rcases h with same | ⟨_, same, h⟩
    · cases same
    · cases same
      exact h

theorem map_eq_error {x : Except ε α} {f : α → β} {e : ε} :
    f <$> x = .error e ↔ x = .error e := by
  cases x with
  | error e' =>
    constructor
    · exact fun h => congrArg _ (Except.error.inj h)
    · exact fun h => congrArg _ (Except.error.inj h)
  | ok a => exact ⟨nofun, nofun⟩

/-- Two computations give the same value if their first steps do and, from the value of these, the
others do. -/
theorem toOption_bind_congr {x y : Except ε α} {f g : α → Except ε β}
    (first : x.toOption = y.toOption) (next : ∀ a, (f a).toOption = (g a).toOption) :
    (x >>= f).toOption = (y >>= g).toOption := by
  cases x with
  | error e =>
    cases y with
    | error e' => rfl
    | ok b => cases first
  | ok a =>
    cases y with
    | error e => cases first
    | ok b =>
      cases first
      exact next a

theorem toOption_map_congr {x y : Except ε α} (f : α → β) (same : x.toOption = y.toOption) :
    (f <$> x).toOption = (f <$> y).toOption := by
  cases x with
  | error e =>
    cases y with
    | error e' => rfl
    | ok b => cases same
  | ok a =>
    cases y with
    | error e => cases same
    | ok b =>
      cases same
      rfl

/-- Faults are changed in a sequence by changing them in its steps. -/
theorem mapError_bind (x : Except ε α) (f : α → Except ε β) (change : ε → γ) :
    (x >>= f).mapError change = x.mapError change >>= fun a => (f a).mapError change := by
  cases x <;> rfl

theorem mapError_map (x : Except ε α) (f : α → β) (change : ε → γ) :
    (f <$> x).mapError change = f <$> x.mapError change := by
  cases x <;> rfl

/-- What distinct values are turned into tells the values apart. -/
theorem map_injective {f : α → β} (distinct : Function.Injective f) {x y : Except ε α}
    (same : f <$> x = f <$> y) : x = y := by
  cases x with
  | error e =>
    cases y with
    | error e' => exact congrArg _ (Except.error.inj same)
    | ok b => cases same
  | ok a =>
    cases y with
    | error e => cases same
    | ok b => exact congrArg _ (distinct (Except.ok.inj same))

theorem toOption_mapError (x : Except ε α) (change : ε → γ) :
    (x.mapError change).toOption = x.toOption := by
  cases x <;> rfl

/-- A computation stops at no fault of a kind. -/
def Avoids (kind : ε → Prop) (x : Except ε α) : Prop := ∀ e, x = .error e → ¬kind e

section

variable {kind : ε → Prop} {x : Except ε α}

@[simp] theorem avoids_ok (a : α) : Avoids kind (.ok a : Except ε α) := nofun

@[simp] theorem avoids_error {e : ε} : Avoids kind (.error e : Except ε α) ↔ ¬kind e :=
  ⟨fun avoids => avoids e rfl, fun other _ same => Except.error.inj same ▸ other⟩

@[simp] theorem avoids_failAt {kind : DecodeError → Prop} {path : Path} {fault : DecodeFault} :
    Avoids kind (failAt path fault : Decoded α) ↔ ¬kind ⟨path, fault⟩ := avoids_error

theorem Avoids.bind {f : α → Except ε β} (first : Avoids kind x)
    (next : ∀ a, x = .ok a → Avoids kind (f a)) : Avoids kind (x >>= f) := by
  intro e fails
  rcases bind_eq_error.mp fails with fails | ⟨a, read, fails⟩
  · exact first e fails
  · exact next a read e fails

theorem Avoids.map {f : α → β} (avoids : Avoids kind x) : Avoids kind (f <$> x) :=
  fun e fails => avoids e (map_eq_error.mp fails)

end

/-- Two computations end alike: both give a value, and these are related, or neither gives one. -/
def Alike (R : α → β → Prop) (x : Except ε α) (y : Except ε β) : Prop :=
  Option.Rel R x.toOption y.toOption

section

variable {R : α → β → Prop} {S : γ → δ → Prop} {x : Except ε α} {y : Except ε β}

theorem alike_ok {a : α} {b : β} (related : R a b) :
    Alike R (.ok a : Except ε α) (.ok b : Except ε β) := .some related

theorem alike_error (e e' : ε) : Alike R (.error e) (.error e') := .none

theorem alike_of_fails (fails : ∀ a, x ≠ .ok a) (fails' : ∀ b, y ≠ .ok b) : Alike R x y := by
  cases x with
  | error e =>
    cases y with
    | error e' => exact alike_error e e'
    | ok b => exact absurd rfl (fails' b)
  | ok a => exact absurd rfl (fails a)

theorem Alike.bind {f : α → Except ε γ} {g : β → Except ε δ} (first : Alike R x y)
    (next : ∀ a b, x = .ok a → y = .ok b → R a b → Alike S (f a) (g b)) :
    Alike S (x >>= f) (y >>= g) := by
  cases x with
  | error e =>
    cases y with
    | error e' => exact alike_error e e'
    | ok b => cases first
  | ok a =>
    cases y with
    | error e => cases first
    | ok b =>
      cases first with
      | some related => exact next a b rfl rfl related

theorem Alike.map {f : α → γ} {g : β → δ} (first : Alike R x y)
    (next : ∀ a b, R a b → S (f a) (g b)) : Alike S (f <$> x) (g <$> y) := by
  cases x with
  | error e =>
    cases y with
    | error e' => exact alike_error e e'
    | ok b => cases first
  | ok a =>
    cases y with
    | error e => cases first
    | ok b =>
      cases first with
      | some related => exact alike_ok (next a b related)

theorem Alike.exists_ok_iff (alike : Alike R x y) : (∃ a, x = .ok a) ↔ ∃ b, y = .ok b := by
  cases x with
  | error e =>
    cases y with
    | error e' => exact ⟨nofun, nofun⟩
    | ok b => cases alike
  | ok a =>
    cases y with
    | error e => cases alike
    | ok b => exact ⟨fun _ => ⟨b, rfl⟩, fun _ => ⟨a, rfl⟩⟩

theorem Alike.related {a : α} {b : β} (alike : Alike R (.ok a : Except ε α) (.ok b)) : R a b := by
  cases alike with
  | some related => exact related

end

end ShapedGraph.Outcome

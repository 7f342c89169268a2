import ShapedGraph.Proofs.Context

/-! Contexts after any number of insertions. Each direction of a context answers a text by the last
pair that was inserted about it, whatever became of that pair in the other direction. So an IRI may
be written as a token that stands for another IRI by now, and the main statement says when it is
not. -/

namespace ShapedGraph

namespace Context

variable {pairs : List Abbreviation} {condition : Abbreviation → Prop} {pair own : Abbreviation}

/-! ## Sequences of insertions -/

/-- The pairs are inserted one after another. -/
def insertAll (context : Context) (pairs : List Abbreviation) : Context :=
  pairs.foldl (fun context pair => context.insert pair.iri pair.token) context

theorem insertAll_cons (context : Context) (pair : Abbreviation) (pairs : List Abbreviation) :
    context.insertAll (pair :: pairs) = (context.insert pair.iri pair.token).insertAll pairs :=
  rfl

theorem insertAll_append (context : Context) (before after : List Abbreviation) :
    context.insertAll (before ++ after) = (context.insertAll before).insertAll after :=
  List.foldl_append

theorem pairs_insertAll (context : Context) (pairs : List Abbreviation) :
    (context.insertAll pairs).pairs = pairs.reverse ++ context.pairs := by
  induction pairs generalizing context with
  | nil => rfl
  | cons pair pairs ih => simp [insertAll_cons, ih, insert]

theorem ofList_eq_insertAll (pairs : List Abbreviation) : ofList pairs = empty.insertAll pairs := by
  have same : (empty.insertAll pairs).pairs = pairs.reverse := by simp [pairs_insertAll, empty]
  rw [ofList, ← same]

/-- Of the pairs that meet the condition, this one was inserted last. -/
def IsLast (pairs : List Abbreviation) (condition : Abbreviation → Prop)
    (pair : Abbreviation) : Prop :=
  condition pair ∧ ∃ before after, pairs = before ++ pair :: after ∧
    ∀ later ∈ after, ¬condition later

theorem IsLast.mem (last : IsLast pairs condition pair) : pair ∈ pairs := by
  obtain ⟨-, before, after, rfl, -⟩ := last
  simp

theorem exists_isLast (met : ∃ pair ∈ pairs, condition pair) :
    ∃ pair, IsLast pairs condition pair := by
  induction pairs with
  | nil => simp at met
  | cons first rest ih =>
    by_cases again : ∃ pair ∈ rest, condition pair
    · obtain ⟨pair, holds, before, after, rfl, last⟩ := ih again
      exact ⟨pair, holds, first :: before, after, rfl, last⟩
    · have holds : condition first := by simpa [again] using met
      exact ⟨first, holds, [], rest, rfl, fun later there holds => again ⟨later, there, holds⟩⟩

/-! ## One direction -/

/-- A direction of a context, as insertions see it: a pair sets the answer to its key, and all other
answers stay. -/
structure KeepsLatest (ask : Context → String → String) (key answer : Abbreviation → String) :
    Prop where
  empty : ∀ text, ask .empty text = text
  insert : ∀ context pair text, ask (context.insert pair.iri pair.token) text =
    if key pair = text then answer pair else ask context text

theorem keepsLatest_compact : KeepsLatest compact (·.iri) (·.token) :=
  ⟨compact_empty, fun context pair => compact_insert context pair.iri pair.token⟩

theorem keepsLatest_expand : KeepsLatest expand (·.token) (·.iri) :=
  ⟨expand_empty, fun context pair => expand_insert context pair.iri pair.token⟩

namespace KeepsLatest

variable {ask : Context → String → String} {key answer : Abbreviation → String} {text : String}

/-- Pairs about other texts leave an answer as it was. -/
theorem unmentioned (keeps : KeepsLatest ask key answer) (context : Context)
    (other : ∀ pair ∈ pairs, key pair ≠ text) :
    ask (context.insertAll pairs) text = ask context text := by
  induction pairs generalizing context with
  | nil => rfl
  | cons pair pairs ih =>
    rw [insertAll_cons, ih _ fun later there => other later (.tail _ there), keeps.insert,
      if_neg (other pair (.head _))]

/-- The answer is that of the last pair about the text, whatever the context held before. -/
theorem of_isLast (keeps : KeepsLatest ask key answer) (context : Context)
    (last : IsLast pairs (key · = text) pair) :
    ask (context.insertAll pairs) text = answer pair := by
  obtain ⟨about, before, after, rfl, other⟩ := last
  rw [insertAll_append, insertAll_cons, keeps.unmentioned _ other, keeps.insert, if_pos about]

theorem eq_iff_of_mentioned (keeps : KeepsLatest ask key answer) (context : Context)
    {found : String} (mentioned : ∃ pair ∈ pairs, key pair = text) :
    ask (context.insertAll pairs) text = found ↔
      ∃ pair, IsLast pairs (key · = text) pair ∧ answer pair = found := by
  constructor
  · rintro rfl
    obtain ⟨pair, last⟩ := exists_isLast mentioned
    exact ⟨pair, last, (keeps.of_isLast context last).symm⟩
  · rintro ⟨pair, last, rfl⟩
    exact keeps.of_isLast context last

end KeepsLatest

/-! ## There and back -/

variable {text : String}

/-- What an IRI is written as stands for it unless the token was given to another IRI since. -/
theorem expand_compact_of_isLast (last : IsLast pairs (·.iri = text) own) :
    (empty.insertAll pairs).expand ((empty.insertAll pairs).compact text) = text ↔
      ∃ reader, IsLast pairs (·.token = own.token) reader ∧ reader.iri = text := by
  rw [keepsLatest_compact.of_isLast empty last]
  exact keepsLatest_expand.eq_iff_of_mentioned empty ⟨own, last.mem, rfl⟩

/-- A text that is no IRI is written as it is, and is read as it is unless it is a token. -/
theorem expand_compact_of_no_iri (other : ∀ pair ∈ pairs, pair.iri ≠ text) :
    (empty.insertAll pairs).expand ((empty.insertAll pairs).compact text) = text ↔
      ∀ pair ∈ pairs, pair.token ≠ text := by
  rw [keepsLatest_compact.unmentioned empty other, compact_empty]
  constructor
  · intro same pair there token
    obtain ⟨reader, last, iri⟩ :=
      (keepsLatest_expand.eq_iff_of_mentioned empty ⟨pair, there, token⟩).mp same
    exact other reader last.mem iri
  · intro unread
    rw [keepsLatest_expand.unmentioned empty unread, expand_empty]

/-- After any insertions, a text is written and read as itself if and only if it is an IRI and the
token that it was given last was not given to another IRI since, or it is neither an IRI nor a
token. Where no token was given to two IRIs, whatever was read is written and read as itself. -/
theorem expand_compact_ofList (pairs : List Abbreviation) :
    ofList pairs = empty.insertAll pairs ∧
    (∀ text, (ofList pairs).expand ((ofList pairs).compact text) = text ↔
      (∃ own, IsLast pairs (·.iri = text) own ∧
        ∃ reader, IsLast pairs (·.token = own.token) reader ∧ reader.iri = text) ∨
      ∀ pair ∈ pairs, pair.iri ≠ text ∧ pair.token ≠ text) ∧
    ((∀ a ∈ pairs, ∀ b ∈ pairs, a.token = b.token → a.iri = b.iri) →
      ∀ text, (ofList pairs).expand ((ofList pairs).compact ((ofList pairs).expand text)) =
        (ofList pairs).expand text) := by
  refine ⟨ofList_eq_insertAll pairs, fun text => ?_, fun distinct text => ?_⟩
  · rw [ofList_eq_insertAll]
    by_cases known : ∃ own ∈ pairs, own.iri = text
    · constructor
      · intro same
        obtain ⟨own, last⟩ := exists_isLast known
        exact .inl ⟨own, last, (expand_compact_of_isLast last).mp same⟩
      · rintro (⟨own, last, again⟩ | neither)
        · exact (expand_compact_of_isLast last).mpr again
        · obtain ⟨own, there, iri⟩ := known
          exact absurd iri (neither own there).1
    · have other : ∀ pair ∈ pairs, pair.iri ≠ text := fun pair there iri =>
        known ⟨pair, there, iri⟩
      rw [expand_compact_of_no_iri other]
      constructor
      · exact fun unread => .inr fun pair there => ⟨other pair there, unread pair there⟩
      · rintro (⟨own, last, -⟩ | neither)
        · exact absurd last.1 (other own last.mem)
        · exact fun pair there => (neither pair there).2
  · have spread : (ofList pairs).TokensDistinct := fun a ha b hb =>
      distinct a (List.mem_reverse.mp ha) b (List.mem_reverse.mp hb)
    exact expand_compact_expand spread text

end Context

/-- Two pages. The first has an old and a new name, and the new one is the IRI of the second. -/
def Sample.pageNames : List Abbreviation :=
  [⟨"ex:home", "home"⟩, ⟨"ex:home", "start"⟩, ⟨"start", "archive"⟩]

/-- The new name of the page is read as the page although it is an IRI with a name of its own. The
old name is still read as the page, but the page is no longer written by it. -/
theorem Sample.pageNames_readBack :
    (∀ a ∈ Sample.pageNames, ∀ b ∈ Sample.pageNames, a.token = b.token → a.iri = b.iri) ∧
      (∀ text, (Context.ofList Sample.pageNames).expand ((Context.ofList Sample.pageNames).compact
        ((Context.ofList Sample.pageNames).expand text)) =
          (Context.ofList Sample.pageNames).expand text) ∧
        (Context.ofList Sample.pageNames).expand
          ((Context.ofList Sample.pageNames).compact "ex:home") = "ex:home" ∧
            (Context.ofList Sample.pageNames).expand
              ((Context.ofList Sample.pageNames).compact "home") = "ex:home" := by
  obtain ⟨-, itself, again⟩ := Context.expand_compact_ofList Sample.pageNames
  have distinct : ∀ a ∈ Sample.pageNames, ∀ b ∈ Sample.pageNames,
      a.token = b.token → a.iri = b.iri := by decide
  refine ⟨distinct, again distinct, (itself "ex:home").mpr (.inl ?_), rfl⟩
  exact ⟨⟨"ex:home", "start"⟩, ⟨rfl, [⟨"ex:home", "home"⟩], [⟨"start", "archive"⟩], rfl, by decide⟩,
    ⟨"ex:home", "start"⟩, ⟨rfl, [⟨"ex:home", "home"⟩], [⟨"start", "archive"⟩], rfl, by decide⟩, rfl⟩

end ShapedGraph

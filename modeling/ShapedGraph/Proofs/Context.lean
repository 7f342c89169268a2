import ShapedGraph.Context

/-! When the two directions of a compaction context undo each other. -/

namespace ShapedGraph.Context

variable {context : Context} {text : String}

theorem compact_of_not_mem (unpaired : ∀ pair ∈ context.pairs, pair.iri ≠ text) :
    context.compact text = text := by
  have none : context.pairs.find? (·.iri == text) = none :=
    List.find?_eq_none.mpr fun pair there => by simpa using unpaired pair there
  rw [compact, none]

theorem expand_of_not_mem (unpaired : ∀ pair ∈ context.pairs, pair.token ≠ text) :
    context.expand text = text := by
  have none : context.pairs.find? (·.token == text) = none :=
    List.find?_eq_none.mpr fun pair there => by simpa using unpaired pair there
  rw [expand, none]

/-- No token is paired with two IRIs. -/
def TokensDistinct (context : Context) : Prop :=
  ∀ a ∈ context.pairs, ∀ b ∈ context.pairs, a.token = b.token → a.iri = b.iri

theorem expand_token (distinct : context.TokensDistinct) {pair : Abbreviation}
    (there : pair ∈ context.pairs) : context.expand pair.token = pair.iri := by
  rw [expand]
  cases found : context.pairs.find? (·.token == pair.token) with
  | none =>
    have missed := List.find?_eq_none.mp found pair there
    simp at missed
  | some other =>
    have same : other.token = pair.token := by simpa using List.find?_some found
    exact distinct other (List.mem_of_find?_eq_some found) pair there same

/-- An IRI that has a token is found again by way of the token. -/
theorem expand_compact_of_mem (distinct : context.TokensDistinct) {pair : Abbreviation}
    (there : pair ∈ context.pairs) : context.expand (context.compact pair.iri) = pair.iri := by
  rw [compact]
  cases found : context.pairs.find? (·.iri == pair.iri) with
  | none =>
    have missed := List.find?_eq_none.mp found pair there
    simp at missed
  | some other =>
    have same : other.iri = pair.iri := by simpa using List.find?_some found
    exact (expand_token distinct (List.mem_of_find?_eq_some found)).trans same

/-- An IRI that was expanded from a text is compacted to a text that expands to it again. -/
theorem expand_compact_expand {context : Context} (distinct : context.TokensDistinct)
    (text : String) : context.expand (context.compact (context.expand text)) =
      context.expand text := by
  by_cases paired : ∃ own ∈ context.pairs, own.iri = context.expand text
  · obtain ⟨own, there, same⟩ := paired
    rw [← same]
    exact expand_compact_of_mem distinct there
  rw [compact_of_not_mem fun own there same => paired ⟨own, there, same⟩]
  -- The IRI of a pair is the IRI of some pair, so that the text is no token.
  have kept : context.expand text = text := expand_of_not_mem fun pair there same =>
    paired ⟨pair, there, by rw [← same, expand_token distinct there]⟩
  rw [kept, kept]

end ShapedGraph.Context

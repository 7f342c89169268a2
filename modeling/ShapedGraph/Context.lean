/-! Compaction contexts, which pair full IRIs with the short tokens written in their place. Pairs
are kept in the order they were added and the latest one about an IRI or a token counts, so the two
directions need not undo each other. -/

namespace ShapedGraph

/-- One pairing of a full IRI with its token. -/
structure Abbreviation where
  iri : String
  token : String
deriving DecidableEq

structure Context where
  pairs : List Abbreviation
deriving DecidableEq

namespace Context

def empty : Context := ⟨[]⟩

def insert (context : Context) (iri token : String) : Context :=
  ⟨⟨iri, token⟩ :: context.pairs⟩

/-- The context of the pairings of a list, added in its order. -/
def ofList (pairs : List Abbreviation) : Context := ⟨pairs.reverse⟩

/-- The token that stands for `iri`, or `iri` itself if there is none. -/
def compact (context : Context) (iri : String) : String :=
  match context.pairs.find? (·.iri == iri) with
  | some pair => pair.token
  | none => iri

/-- The IRI that `token` stands for, or `token` itself if it stands for none. -/
def expand (context : Context) (token : String) : String :=
  match context.pairs.find? (·.token == token) with
  | some pair => pair.iri
  | none => token

/-- The number of distinct IRIs that have a token. -/
def size (context : Context) : Nat := (context.pairs.map (·.iri)).eraseDups.length

@[simp] theorem compact_empty (iri : String) : empty.compact iri = iri := rfl

@[simp] theorem expand_empty (token : String) : empty.expand token = token := rfl

/-- A pairing replaces what its IRI was written as. -/
theorem compact_insert (context : Context) (iri token other : String) :
    (context.insert iri token).compact other =
      if iri = other then token else context.compact other := by
  by_cases h : iri = other <;> simp [insert, compact, h]

/-- A pairing replaces what its token was read as. -/
theorem expand_insert (context : Context) (iri token other : String) :
    (context.insert iri token).expand other =
      if token = other then iri else context.expand other := by
  by_cases h : token = other <;> simp [insert, expand, h]

end Context

end ShapedGraph

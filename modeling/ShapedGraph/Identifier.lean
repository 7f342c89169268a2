/-! The shapes of node identifiers. Only the shape is looked at: a blank node starts with `_:`, and
an IRI is any other text with a colon in it, so a compact form such as `ex:thing` counts as one. -/

namespace ShapedGraph

def isBlankNode (text : String) : Bool := "_:".toList.isPrefixOf text.toList

def isIri (text : String) : Bool := !isBlankNode text && text.toList.contains ':'

/-- The text can identify a node: it is an IRI or a blank node. -/
def isIdentifier (text : String) : Bool := isIri text || isBlankNode text

/-- A text identifies a node as soon as it holds a colon. -/
theorem isIdentifier_iff_colon {text : String} : isIdentifier text = true ↔ ':' ∈ text.toList := by
  constructor
  · intro h
    by_cases hb : isBlankNode text = true
    · rw [isBlankNode, List.isPrefixOf_iff_prefix] at hb
      exact hb.subset (by decide)
    · simpa [isIdentifier, isIri, hb] using h
  · intro h
    by_cases hb : isBlankNode text = true <;> simp [isIdentifier, isIri, hb, h]

end ShapedGraph

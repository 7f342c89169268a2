import ShapedGraph.Identifier

/-! What a class asks of the identifiers of its objects. -/

namespace ShapedGraph

inductive NodeKind where
  | blankNode
  | iri
  | either
deriving DecidableEq

namespace NodeKind

/-- An object with this identifier, or with none, is of the kind. Only IRI nodes must have one. -/
def admits : NodeKind → Option String → Bool
  | .iri, none => false
  | _, none => true
  | .blankNode, some id => isBlankNode id
  | .iri, some id => isIri id
  | .either, some id => isIdentifier id

def message : NodeKind → String
  | .blankNode => "ID must be a blank node"
  | .iri => "ID must be an IRI"
  | .either => "ID must be a blank node or IRI"

end NodeKind

end ShapedGraph

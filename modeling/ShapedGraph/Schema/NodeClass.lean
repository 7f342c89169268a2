import ShapedGraph.Schema.Property

/-! Classes with everything settled that they inherit. The layout of a class holds the properties
of its parents in front of its own, and an object has one slot for each place in the layout. -/

namespace ShapedGraph

structure NodeClass where
  iri : String
  compact : Option String
  nodeKind : NodeKind
  /-- The member that holds the identifier of an object, in the place of the usual one. -/
  idAlias : Option String
  isAbstract : Bool
  /-- Objects may have members that are not declared. -/
  isExtensible : Bool
  /-- The IRIs of the parents, in declared order. -/
  parents : List String
  /-- The IRIs of the class itself and of all its ancestors, each once. -/
  lineage : List String
  own : List Property
  layout : List Property
deriving DecidableEq

namespace NodeClass

/-- The class that a declaration makes with its parents and its compiled properties. What it does
not say itself it takes from its parents: the kind of node from the first one, the member for the
identifier from the first one that has it, and being extensible from any of them. -/
def ofParents (decl : ClassDecl) (parents : List NodeClass) (own : List Property) : NodeClass where
  iri := decl.iri
  compact := decl.compact
  nodeKind := decl.nodeKind.getD ((parents.head?.map (·.nodeKind)).getD .either)
  idAlias := decl.idAlias.or (parents.findSome? (·.idAlias))
  isAbstract := decl.isAbstract
  isExtensible := decl.extensible.getD (parents.any (·.isExtensible))
  parents := parents.map (·.iri)
  lineage := decl.iri :: parents.foldl (fun found parent =>
    found ++ parent.lineage.filter fun iri => !found.contains iri) []
  own := own
  layout := Property.merge
    (parents.foldl (fun found parent => Property.merge found parent.layout) []) own

/-- The name that documents are written with: the compact name if there is one. -/
def typeName (c : NodeClass) : String := c.compact.getD c.iri

/-- The class is the one with this IRI or derives from it. -/
def isSubclassOf (c : NodeClass) (iri : String) : Bool := c.lineage.contains iri

/-- The last place in the layout whose property satisfies a condition. -/
def lastPlace (c : NodeClass) (condition : Property → Bool) : Option Nat :=
  (c.layout.zipIdx.reverse.find? fun (p, _) => condition p).map (·.2)

/-- The place of the property that a document writes with `key`. -/
def keyPlace (c : NodeClass) (key : String) : Option Nat := c.lastPlace (·.matchesKey key)

/-- The place of the property that is called `key`, or is written with it if none is. -/
def place (c : NodeClass) (key : String) : Option Nat :=
  (c.lastPlace (·.name == key)).or (c.keyPlace key)

def idKey (c : NodeClass) : String := c.idAlias.getD "@id"

end NodeClass

end ShapedGraph

import ShapedGraph.Context
import ShapedGraph.NodeKind
import ShapedGraph.Scalar.Basic

/-! Declarations of classes and of their properties, as they are handed in before anything about
them has been checked. Parents and the classes of objects are named by IRI or by compact name. -/

namespace ShapedGraph

inductive ValueKind where
  | scalar (kind : ScalarKind)
  /-- Objects of a class, or IRIs in their place. -/
  | object (cls : String)
deriving DecidableEq

def ValueKind.name : ValueKind → String
  | .scalar kind => kind.name
  | .object _ => "object"

inductive Constraint where
  | pattern (source : String)
  | minimum (bound : Int64)
  | maximum (bound : Int64)
  /-- The values that are allowed, with IRIs in full. -/
  | oneOf (values : List String)
deriving DecidableEq

def Constraint.name : Constraint → String
  | .pattern _ => "pattern"
  | .minimum _ => "minInclusive"
  | .maximum _ => "maxInclusive"
  | .oneOf _ => "in"

structure PropertyDecl where
  name : String
  iri : String
  compact : Option String
  kind : ValueKind
  isList : Bool
  minCount : Option Nat
  maxCount : Option Nat
  abbreviations : List Abbreviation
  constraints : List Constraint
deriving DecidableEq

structure ClassDecl where
  iri : String
  compact : Option String
  nodeKind : Option NodeKind
  idAlias : Option String
  isAbstract : Bool
  extensible : Option Bool
  parents : List String
  properties : List PropertyDecl
deriving DecidableEq

namespace PropertyDecl

/-- The key that documents are written with: the compact name if there is one. -/
def key (p : PropertyDecl) : String := p.compact.getD p.iri

/-- The property may be written with this key. -/
def matchesKey (p : PropertyDecl) (key : String) : Bool := p.iri = key ∨ p.compact = some key

def isRequired (p : PropertyDecl) : Bool :=
  match p.minCount with
  | some least => 0 < least
  | none => false

def context (p : PropertyDecl) : Context := .ofList p.abbreviations

end PropertyDecl

end ShapedGraph

import ShapedGraph.NodeKind

/-! What can be wrong with a value that has the right type. -/

namespace ShapedGraph

/-- Why a value or a property is not accepted. -/
inductive Reason where
  | notIdentifier
  | patternMismatch (value pattern : String)
  | belowMinimum (value bound : Int64)
  | aboveMaximum (value bound : Int64)
  | notEnumerated (value : String)
  | required
  | tooFew (least : Nat)
  | tooMany (most : Nat)
  | nodeKind (kind : NodeKind)
deriving DecidableEq

/-- A fault of the property with a name. -/
structure ValidationError where
  property : String
  reason : Reason
deriving DecidableEq

def Reason.message : Reason → String
  | .notIdentifier => "Must be an IRI or a Blank Node"
  | .patternMismatch value _ => "Value '" ++ value ++ "' does not match pattern"
  | .belowMinimum value bound =>
    "Value " ++ toString value.toInt ++ " is less than minimum " ++ toString bound.toInt
  | .aboveMaximum value bound =>
    "Value " ++ toString value.toInt ++ " is greater than maximum " ++ toString bound.toInt
  | .notEnumerated value => "Value '" ++ value ++ "' is not a valid enumerated value"
  | .required => "Value is required"
  | .tooFew least => "Too few elements. Minimum of " ++ toString least ++ " required"
  | .tooMany most => "Too many elements. Maximum of " ++ toString most ++ " allowed"
  | .nodeKind kind => kind.message

def ValidationError.message (e : ValidationError) : String :=
  e.property ++ ": " ++ e.reason.message

end ShapedGraph

/-! Why declarations cannot be made into a registry. -/

namespace ShapedGraph

inductive RegistryError where
  | unknownParent (cls parent : String)
  | cycle (cls : String)
  | unknownClass (property cls : String)
  | invalidPattern (property : String)
  | invalidConstraint (property constraint kind : String)
deriving DecidableEq

def RegistryError.message : RegistryError → String
  | .unknownParent cls parent => "class " ++ cls ++ " names unknown parent " ++ parent
  | .cycle cls => "inheritance cycle through " ++ cls
  | .unknownClass property cls =>
    "property " ++ property ++ " references unknown class " ++ cls
  | .invalidPattern property => "property " ++ property ++ " has invalid pattern"
  | .invalidConstraint property constraint kind =>
    "constraint " ++ constraint ++ " does not apply to " ++ kind ++ " property " ++ property

end ShapedGraph

import ShapedGraph.Binary64.Basic
import ShapedGraph.Members

/-! JSON values. Integers that a document writes exactly are kept apart from all other numbers,
and the members of an object stand in key order. -/

namespace ShapedGraph

inductive Json where
  | null
  | bool (value : Bool)
  | integer (value : Int)
  | float (value : Binary64)
  | string (value : String)
  | list (items : List Json)
  | object (members : List (String × Json))
deriving Inhabited

namespace Json

/-- The name of a value's type in messages. -/
def typeName : Json → String
  | .null => "null"
  | .bool _ => "boolean"
  | .integer _ | .float _ => "number"
  | .string _ => "string"
  | .list _ => "list"
  | .object _ => "object"

end Json

end ShapedGraph

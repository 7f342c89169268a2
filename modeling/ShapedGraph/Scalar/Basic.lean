import ShapedGraph.Binary64.Text
import ShapedGraph.DateTime

/-! The values that properties hold besides references, and the kinds that properties declare. Some
kinds share a type of value: they differ in how documents write it. -/

namespace ShapedGraph

inductive Scalar where
  | string (value : String)
  | boolean (value : Bool)
  | integer (value : Int64)
  | float (value : Binary64)
  | dateTime (value : DateTime)
deriving DecidableEq

inductive ScalarType where
  | string
  | boolean
  | integer
  | float
  | dateTime
deriving DecidableEq

inductive ScalarKind where
  | string
  | iri
  | boolean
  | integer
  | float
  | dateTime
  | dateTimeStamp
deriving DecidableEq

def ScalarType.name : ScalarType → String
  | .string => "string"
  | .boolean => "boolean"
  | .integer => "integer"
  | .float => "float"
  | .dateTime => "date-time"

namespace ScalarKind

/-- The type of the values that a kind of property holds. -/
def type : ScalarKind → ScalarType
  | .string | .iri => .string
  | .boolean => .boolean
  | .integer => .integer
  | .float => .float
  | .dateTime | .dateTimeStamp => .dateTime

def name : ScalarKind → String
  | .string => "string"
  | .iri => "IRI"
  | .boolean => "boolean"
  | .integer => "integer"
  | .float => "float"
  | .dateTime => "date-time"
  | .dateTimeStamp => "date-time-stamp"

end ScalarKind

namespace Scalar

def type : Scalar → ScalarType
  | .string _ => .string
  | .boolean _ => .boolean
  | .integer _ => .integer
  | .float _ => .float
  | .dateTime _ => .dateTime

/-- The text of a value, which patterns look at. -/
def text : Scalar → String
  | .string value => value
  | .boolean value => if value then "true" else "false"
  | .integer value => toString value.toInt
  | .float value => value.text
  | .dateTime value => value.text

end Scalar

end ShapedGraph

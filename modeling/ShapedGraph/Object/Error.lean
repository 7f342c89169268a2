import ShapedGraph.Validation.Error

/-! Why an object cannot be made or changed. -/

namespace ShapedGraph

/-- An object of one class, or a reference, does not pass for an object of another class. -/
structure ConversionError where
  source : String
  target : String
deriving DecidableEq

def ConversionError.message (e : ConversionError) : String :=
  "Unable to convert from " ++ e.source ++ " to " ++ e.target

inductive AccessError where
  | unknownClass (cls : String)
  | abstractType (type : String)
  | unknownProperty (cls name : String)
  | propertyKind (name expected found : String)
  | notExtensible (cls : String)
  | validation (cause : ValidationError)
  | conversion (cause : ConversionError)
deriving DecidableEq

def AccessError.message : AccessError → String
  | .unknownClass cls => "Unknown class '" ++ cls ++ "'"
  | .abstractType type => "Unable to create abstract type '" ++ type ++ "'"
  | .unknownProperty cls name => "class " ++ cls ++ " has no property " ++ name
  | .propertyKind name expected found =>
    "property " ++ name ++ " holds " ++ found ++ ", not " ++ expected
  | .notExtensible cls => "class " ++ cls ++ " is not extensible"
  | .validation cause => cause.message
  | .conversion cause => cause.message

end ShapedGraph

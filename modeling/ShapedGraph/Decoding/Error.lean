import ShapedGraph.Path
import ShapedGraph.Validation.Error
import ShapedGraph.Binary64.Text

/-! Why a document cannot be read. Reading stops at the first fault and says where it is. -/

namespace ShapedGraph

/-- What is wrong. Types of JSON values are given by name. -/
inductive DecodeFault where
  | missingContext
  | contextNotString
  | wrongContext (found : String)
  | unknownTopLevelKey (key : String)
  | expectedObject (found : String)
  | missingType
  | typeNotString (found : String)
  | typeNotValid (type expected : String)
  | abstractType (type : String)
  | noMatchingExtensible (type : String)
  | unknownProperty (key : String)
  | idNotAllowed (cls : String)
  | invalidId (cause : ValidationError)
  | depthExceeded (limit : Nat)
  | expectedString (found : String)
  | expectedBoolean (found : String)
  | expectedInteger (found : String)
  | notAnInteger (value : Binary64)
  | expectedFloat (found : String)
  | invalidFloat (value : String)
  | expectedList (found : String)
  | notIdentifier (value : String)
  | invalidDateTime (value : String)
  | unsupportedValue (found : String)
  | slotMismatch
deriving DecidableEq

/-- A fault and the path of the value that has it. -/
structure DecodeError where
  path : Path
  fault : DecodeFault
deriving DecidableEq

def DecodeFault.message : DecodeFault → String
  | .missingContext => "@context missing"
  | .contextNotString => "@context must be a string, or list of string"
  | .wrongContext found => "Wrong context URL '" ++ found ++ "'"
  | .unknownTopLevelKey key => "Unknown top level key '" ++ key ++ "'"
  | .expectedObject found => "Expected object, found " ++ found
  | .missingType => "type missing"
  | .typeNotString found => "@type must be a string, found " ++ found
  | .typeNotValid type expected =>
    "Type " ++ type ++ " is not valid where " ++ expected ++ " is expected"
  | .abstractType type => "Unable to create abstract type '" ++ type ++ "'"
  | .noMatchingExtensible type =>
    "Unable to create object of type '" ++ type ++ "' (no matching extensible object)"
  | .unknownProperty key => "Unknown property '" ++ key ++ "'"
  | .idNotAllowed cls => "'@id' is not allowed for " ++ cls ++ " which has an ID alias"
  | .invalidId cause => "Invalid identifier: " ++ cause.message
  | .depthExceeded limit => "Nesting exceeds maximum depth of " ++ toString limit
  | .expectedString found => "Expected string, found " ++ found
  | .expectedBoolean found => "Expected boolean, found " ++ found
  | .expectedInteger found => "Expected integer, found " ++ found
  | .notAnInteger value => "Value must be an integer, found " ++ value.text
  | .expectedFloat found => "Expected float, found " ++ found
  | .invalidFloat value => "Invalid float '" ++ value ++ "'"
  | .expectedList found => "Expected list, found " ++ found
  | .notIdentifier value => "Must be blank node or IRI. Got '" ++ value ++ "'"
  | .invalidDateTime value => "Invalid date time string '" ++ value ++ "'"
  | .unsupportedValue found => "Unsupported value of type " ++ found
  | .slotMismatch => "Property slot does not match its declared kind"

def DecodeError.message (e : DecodeError) : String := e.path.text ++ ": " ++ e.fault.message

/-- What reading gives: a value, or the first fault. -/
abbrev Decoded (α : Type) := Except DecodeError α

def failAt {α : Type} (path : Path) (fault : DecodeFault) : Decoded α := .error ⟨path, fault⟩

end ShapedGraph

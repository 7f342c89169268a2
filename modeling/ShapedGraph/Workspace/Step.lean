import ShapedGraph.Workspace.Basic

/-! Steps on a workspace, and what they answer. -/

namespace ShapedGraph

inductive ReferenceTerm where
  | unset
  | iri (text : String)
  /-- A new object with the content of a named one. -/
  | copy (name : String)
  /-- A shared object. -/
  | shared (name : String)

/-- A value of a member that is not declared, as a step gives it. -/
inductive ExtensionTerm where
  | reference (target : ReferenceTerm)
  | string (value : String)
  | integer (value : Int64)
  | float (value : Binary64)
  | boolean (value : Bool)
  | list (values : List ExtensionTerm)

/-- What an accessor takes a property to hold. -/
inductive Accessor where
  | scalar (type : ScalarType)
  | list (type : ScalarType)
  | reference
  | references

inductive Content where
  | scalar (value : Scalar)
  | list (type : ScalarType) (values : List Scalar)
  | reference (target : ReferenceTerm)
  | references (targets : List ReferenceTerm)

inductive Item where
  | scalar (value : Scalar)
  | reference (target : ReferenceTerm)

/-- A step on one object. Properties are given by name or by key. -/
inductive ObjectStep where
  | get (key : String) (accessor : Accessor)
  | set (key : String) (content : Content)
  | push (key : String) (item : Item)
  | delete (key : String) (accessor : Accessor)
  | setId (id : String)
  | deleteId
  | setType (type : String)
  | clearType
  | describe
  | validate (path : Path) (collect : Bool)
  | walk (path : Path)
  | slot (key : String) (path : Path)
  | deleteSlot (key : String)
  | setExtension (key : String) (values : List ExtensionTerm)
  | deleteExtension (key : String)
  | getExtension (key : String)
  | reference (key : String) (position : Option Nat)
  | narrow (key : String) (position : Option Nat) (cls : String)
  /-- A step on the object that a property refers to, of which the property gets a copy of its
  own. -/
  | inside (key : String) (position : Option Nat) (step : ObjectStep)

inductive Step where
  | create (name cls : String)
  | decodeObject (name : String) (value : Json) (target : Option String) (path : Path)
      (maxDepth : Nat)
  | decodeExtension (value : Json) (path : Path) (maxDepth : Nat)
  | share (name sharedName : String)
  | addCopy (name : String)
  | addShared (name : String)
  | decode (bytes : ByteArray) (maxDepth : Nat)
  | describeGraph
  | encodeGraph (pretty : Bool)
  | validateGraph (collect : Bool)
  | walkGraph
  | locateObjects
  | objectsOf (cls : String) (subclasses : Bool)
  | encodeReferences (written : List String) (targets : List ReferenceTerm)
  | isSubclass (cls parent : String)
  | encode (name : String)
  | onObject (name : String) (step : ObjectStep)

/-- What is known of a property that a step looks at. -/
structure SlotReport where
  property : Property
  slot : Slot
  verdict : Verdict (List (Located ValidationError))
  visits : List Visit

inductive Answer where
  | done
  /-- The step names something that is not there. -/
  | unknownName
  | absent
  | flag (value : Bool)
  | count (value : Nat)
  | text (value : String)
  | texts (values : List String)
  | accessFault (e : AccessError)
  | decodeFault (e : DecodeError)
  /-- A document could not be read; the graph has this many roots. -/
  | documentFault (e : DocumentError) (size : Nat)
  | object (o : Object)
  | extension (value : Extension)
  | extensions (values : List Extension)
  | verdict (verdict : Verdict (List (Located ValidationError)))
  | valid (value : Bool)
  | visits (visits : List Visit)
  | scalarProperty (property : Property) (value : Option Scalar)
  | listProperty (property : Property) (values : List Scalar)
  | referenceProperty (property : Property) (target : Reference)
  | referencesProperty (property : Property) (targets : List Reference)
  | reference (target : Reference)
  | slot (report : SlotReport)
  | graph (graph : Graph)
  | located (objects : List (Located Object))
  | objects (objects : List Object)

end ShapedGraph

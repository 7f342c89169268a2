import ShapedGraph.Members
import ShapedGraph.Schema.Registry

/-! Objects of the classes of a registry. An object owns the objects it refers to, except that one
object may be reached from several places: then each of these references carries the same handle,
and the same object behind it. -/

namespace ShapedGraph

mutual

/-- An object: its class, its identifier, the type name that a document gave it, the contents of
its properties in layout order, and the members that its class does not declare. -/
structure Object where
  cls : NodeClass
  id : Option String
  observedType : Option String
  slots : List Slot
  extensions : List (String × List Extension)

inductive Slot where
  | scalar (value : Option Scalar)
  | list (values : List Scalar)
  | reference (target : Reference)
  | references (targets : List Reference)

inductive Reference where
  | unset
  | iri (text : String)
  /-- An object. Without a handle it is reached from here only. -/
  | object (handle : Option Nat) (target : Object)

/-- A value of a member that is not declared. -/
inductive Extension where
  | reference (target : Reference)
  | string (value : String)
  | integer (value : Int64)
  | float (value : Binary64)
  | boolean (value : Bool)
  | list (values : List Extension)

end

namespace Reference

def isSet : Reference → Bool
  | .unset => false
  | _ => true

def isIri : Reference → Bool
  | .iri _ => true
  | _ => false

def isObject : Reference → Bool
  | .object _ _ => true
  | _ => false

/-- The IRI that is referred to: for an object its identifier, if it has one. -/
def iri? : Reference → Option String
  | .unset => none
  | .iri text => some text
  | .object _ o => o.id

end Reference

namespace Slot

def empty (p : Property) : Slot :=
  match p.kind, p.isList with
  | .scalar _, false => .scalar none
  | .scalar _, true => .list []
  | .object _, false => .reference .unset
  | .object _, true => .references []

def isSet : Slot → Bool
  | .scalar value => value.isSome
  | .list values => !values.isEmpty
  | .reference target => target.isSet
  | .references targets => !targets.isEmpty

def isList : Slot → Bool
  | .list _ | .references _ => true
  | _ => false

def length : Slot → Nat
  | .list values => values.length
  | .references targets => targets.length
  | slot => if slot.isSet then 1 else 0

def cleared : Slot → Slot
  | .scalar _ => .scalar none
  | .list _ => .list []
  | .reference _ => .reference .unset
  | .references _ => .references []

end Slot

namespace Object

def blank (cls : NodeClass) : Object := ⟨cls, none, none, cls.layout.map Slot.empty, []⟩

/-- An object of a class that a document calls by this type name, without content. -/
def ofType (cls : NodeClass) (type : String) : Object := { blank cls with observedType := type }

/-- The type name that the object is written with: the one a document gave it, or its class's. -/
def typeIri (o : Object) : String := o.observedType.getD o.cls.typeName

/-- Each property with its content, in layout order. -/
def properties (o : Object) : List (Property × Slot) := o.cls.layout.zip o.slots

/-- A property of an object: its place in the layout and what it holds there. -/
structure Cell (α : Type) where
  place : Nat
  property : Property
  content : α

/-- The property that is called or written with `key`. -/
def cell? (o : Object) (key : String) : Option (Cell Slot) := do
  let place ← o.cls.place key
  let (property, slot) ← o.properties[place]?
  some ⟨place, property, slot⟩

/-- The object with other content in one place. -/
def putSlot (o : Object) (place : Nat) (slot : Slot) : Object :=
  { o with slots := o.slots.set place slot }

end Object

end ShapedGraph

import ShapedGraph.Field
import ShapedGraph.Schema.Declaration
import ShapedGraph.Schema.Error

/-! Properties of classes: declarations whose constraints have been compiled. A property is told
from all others by the class that declares it and its position there, so a subclass that inherits
one twice has it once. -/

namespace ShapedGraph

structure Property extends PropertyDecl where
  /-- The IRI of the class that declares the property. -/
  owner : String
  /-- Its position among the properties of that class. -/
  position : Nat
  chain : List Validator
deriving DecidableEq

namespace Property

def same (p q : Property) : Bool := p.owner = q.owner ∧ p.position = q.position

/-- The property with a value, as one that stands on its own. -/
def field (p : Property) (value : Option Scalar) : Field := ⟨p.name, p.chain, value⟩

/-- The property with a list of values, as one that stands on its own. -/
def listField (p : Property) (values : List Scalar) : ListField := ⟨p.name, p.chain, values⟩

def contentName (p : Property) : String :=
  let single :=
    match p.kind with
    | .scalar kind => kind.type.name
    | .object _ => "reference"
  if p.isList then single ++ " list" else single

/-- The validator of a constraint. Which constraints apply depends on the kind of value: patterns
to everything that has a text of its own, bounds to integers, lists of values to strings. -/
def validator (decl : PropertyDecl) (constraint : Constraint) : Except RegistryError Validator :=
  let matching (source : String) : Except RegistryError Validator :=
    match Pattern.compile? source with
    | some pattern => .ok (.pattern pattern)
    | none => .error (.invalidPattern decl.iri)
  match decl.kind, constraint with
  | .scalar .string, .pattern source | .scalar .iri, .pattern source
  | .scalar .integer, .pattern source | .scalar .dateTime, .pattern source
  | .scalar .dateTimeStamp, .pattern source => matching source
  | .scalar .integer, .minimum bound => .ok (.atLeast bound)
  | .scalar .integer, .maximum bound => .ok (.atMost bound)
  | .scalar .string, .oneOf values | .scalar .iri, .oneOf values => .ok (.oneOf values)
  | kind, constraint => .error (.invalidConstraint decl.iri constraint.name kind.name)

/-- The property that a declaration at a position of a class makes. -/
def compile (owner : String) (position : Nat) (decl : PropertyDecl) :
    Except RegistryError Property := do
  let chain ← decl.constraints.mapM (validator decl)
  .ok { decl with owner, position, chain }

/-- The properties that the declarations of a class make, from `position` on. -/
def compileAll (owner : String) : Nat → List PropertyDecl → Except RegistryError (List Property)
  | _, [] => .ok []
  | position, decl :: decls => do
    let property ← compile owner position decl
    let properties ← compileAll owner (position + 1) decls
    .ok (property :: properties)

/-- The properties of the first list, and behind them those of the second that are not in it. -/
def merge (found more : List Property) : List Property :=
  found ++ more.filter fun p => !found.any (same p)

end Property

end ShapedGraph

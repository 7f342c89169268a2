import ShapedGraph.Validation.Validator

/-! Properties that stand on their own: a name, a chain of validators, and one value or a list of
them. A value is stored only if the chain accepts it. -/

namespace ShapedGraph

/-- A property that holds one value at most. -/
structure Field where
  name : String
  chain : List Validator
  value : Option Scalar

/-- A property that holds any number of values in order. -/
structure ListField where
  name : String
  chain : List Validator
  values : List Scalar

namespace Field

def empty (name : String) (chain : List Validator) : Field := ⟨name, chain, none⟩

def set (field : Field) (value : Scalar) : Except ValidationError Field :=
  match Validator.firstError field.chain field.name value with
  | some e => .error e
  | none => .ok { field with value := some value }

def delete (field : Field) : Field := { field with value := none }

/-- Reports every fault of the stored value at the property's own path. -/
def check {σ : Type} (handle : Handler σ) (field : Field) (path : Path) (verdict : Verdict σ) :
    Verdict σ :=
  match field.value with
  | some value => verdict.checkValue handle field.chain field.name path value
  | none => verdict

/-- The stored value at the path of the owner and the property's name. -/
def walk (field : Field) (owner : Path) : List (Located Scalar) :=
  (field.value.map (⟨owner.member field.name, ·⟩)).toList

end Field

namespace ListField

def empty (name : String) (chain : List Validator) : ListField := ⟨name, chain, []⟩

/-- Stores a list of values that the chain accepts. -/
def set (field : ListField) (values : List Scalar) : Except ValidationError ListField :=
  match Validator.firstErrorIn field.chain field.name values with
  | some e => .error e
  | none => .ok { field with values }

/-- Adds a value that the chain accepts at the end. -/
def push (field : ListField) (value : Scalar) : Except ValidationError ListField :=
  match Validator.firstError field.chain field.name value with
  | some e => .error e
  | none => .ok { field with values := field.values ++ [value] }

def delete (field : ListField) : ListField := { field with values := [] }

/-- Reports every fault of the stored values, each at its own position. -/
def check {σ : Type} (handle : Handler σ) (field : ListField) (path : Path)
    (verdict : Verdict σ) : Verdict σ :=
  verdict.checkValues handle field.chain field.name path 0 field.values

/-- The stored values, each at its own position. -/
def walk (field : ListField) (owner : Path) : List (Located Scalar) :=
  field.values.zipIdx.map fun (value, position) =>
    ⟨(owner.member field.name).item position, value⟩

end ListField

end ShapedGraph

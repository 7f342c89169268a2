import ShapedGraph.Path
import ShapedGraph.Pattern.Basic
import ShapedGraph.Scalar.Basic
import ShapedGraph.Validation.Error

/-! Checks on single values. A chain of validators can stop at the first fault, which is how values
are set, or report every fault, which is how stored values are checked. -/

namespace ShapedGraph

inductive Validator where
  /-- The text is an IRI or a blank node. -/
  | identifier
  /-- The text of the value has a part that matches. -/
  | pattern (expected : Pattern)
  | atLeast (bound : Int64)
  | atMost (bound : Int64)
  /-- The text is one of these. -/
  | oneOf (values : List String)
deriving DecidableEq

namespace Validator

/-- Why a value fails the check. Checks of texts and of integers pass values of other types. -/
def reason? : Validator → Scalar → Option Reason
  | .identifier, .string value => if isIdentifier value then none else some .notIdentifier
  | .pattern expected, value =>
    if expected.isFoundIn value.text then none
    else some (.patternMismatch value.text expected.source)
  | .atLeast bound, .integer value =>
    if value < bound then some (.belowMinimum value bound) else none
  | .atMost bound, .integer value =>
    if bound < value then some (.aboveMaximum value bound) else none
  | .oneOf values, .string value =>
    if values.contains value then none else some (.notEnumerated value)
  | _, _ => none

/-- The fault of the value of the property `name`, if the check finds one. -/
def check (name : String) (value : Scalar) (validator : Validator) : Option ValidationError :=
  (validator.reason? value).map (⟨name, ·⟩)

def firstError (chain : List Validator) (name : String) (value : Scalar) :
    Option ValidationError :=
  chain.findSome? (check name value)

/-- The first fault that a chain finds in the values of a list. -/
def firstErrorIn (chain : List Validator) (name : String) (values : List Scalar) :
    Option ValidationError :=
  values.findSome? (firstError chain name)

end Validator

/-- What is done with a fault and the path it is found at: a step on a state. -/
abbrev Handler (σ : Type) := σ → Path → ValidationError → σ

/-- Whether no fault has been found, and the state of the handler that is told of them. -/
structure Verdict (σ : Type) where
  valid : Bool
  state : σ

namespace Verdict

variable {σ : Type}

def initial (state : σ) : Verdict σ := ⟨true, state⟩

def report (handle : Handler σ) (path : Path) (verdict : Verdict σ) (e : ValidationError) :
    Verdict σ :=
  ⟨false, handle verdict.state path e⟩

/-- Reports every fault that a chain finds in one value. -/
def checkValue (handle : Handler σ) (chain : List Validator) (name : String) (path : Path)
    (value : Scalar) (verdict : Verdict σ) : Verdict σ :=
  chain.foldl (fun verdict validator =>
    match validator.check name value with
    | some e => verdict.report handle path e
    | none => verdict) verdict

/-- Reports every fault in the values of a list, from `position` on, each at its own position. -/
def checkValues (handle : Handler σ) (chain : List Validator) (name : String) (path : Path) :
    Nat → List Scalar → Verdict σ → Verdict σ
  | _, [], verdict => verdict
  | position, value :: values, verdict =>
    checkValues handle chain name path (position + 1) values
      (verdict.checkValue handle chain name (path.item position) value)

end Verdict

namespace Handler

/-- Keeps every fault, in the order they are found. -/
def collect : Handler (List (Located ValidationError)) :=
  fun found path e => found ++ [⟨path, e⟩]

def ignore : Handler Unit := fun _ _ _ => ()

end Handler

end ShapedGraph

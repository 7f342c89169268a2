import ShapedGraph.Context
import ShapedGraph.Decoding.Error
import ShapedGraph.Json.Basic
import ShapedGraph.Scalar.Basic

/-! Scalar values in documents. Each kind of property has its own way to read and to write the
values it holds; only the IRI kind looks at the compaction context. -/

namespace ShapedGraph

namespace Scalar

def decodeString (path : Path) : Json → Decoded String
  | .string value => .ok value
  | other => failAt path (.expectedString other.typeName)

def decodeBoolean (path : Path) : Json → Decoded Bool
  | .bool value => .ok value
  | other => failAt path (.expectedBoolean other.typeName)

/-- The integer of 64 bits that an integer is, if it is one. -/
def toInt64? (n : Int) : Option Int64 :=
  if Int64.minValue.toInt ≤ n ∧ n ≤ Int64.maxValue.toInt then some (Int64.ofInt n) else none

/-- The integer of 64 bits that a floating point number is. -/
def integerOfFloat (path : Path) (x : Binary64) : Decoded Int64 :=
  match x.toInt?.bind toInt64? with
  | some n => .ok n
  | none => failAt path (.notAnInteger x)

/-- An integer may also be written as a floating point number without a fraction. -/
def decodeInteger (path : Path) : Json → Decoded Int64
  | .integer n =>
    match toInt64? n with
    | some n => .ok n
    | none => integerOfFloat path (.ofInt n)
  | .float x => integerOfFloat path x
  | other => failAt path (.expectedInteger other.typeName)

/-- A float is written as a number or as its text. -/
def decodeFloat (path : Path) : Json → Decoded Binary64
  | .integer n => .ok (.ofInt n)
  | .float x => .ok x
  | .string text =>
    match Binary64.parse? text with
    | some x => .ok x
    | none => failAt path (.invalidFloat text)
  | other => failAt path (.expectedFloat other.typeName)

/-- An IRI is written in full or as its token; what it stands for must identify a node. -/
def decodeIri (context : Context) (path : Path) (json : Json) : Decoded String := do
  let iri := context.expand (← decodeString path json)
  if isIdentifier iri then .ok iri else failAt path (.notIdentifier iri)

def decodeDateTime (offsetRequired : Bool) (path : Path) (json : Json) : Decoded DateTime := do
  let text ← decodeString path json
  match DateTime.ofChars? offsetRequired text.toList with
  | some t => .ok t
  | none => failAt path (.invalidDateTime text)

end Scalar

/-- Reads each element of a list at its own position, from `position` on. -/
def decodeItems {α : Type} (decode : Path → Json → Decoded α) (path : Path) :
    Nat → List Json → Decoded (List α)
  | _, [] => .ok []
  | position, item :: items => do
    let value ← decode (path.item position) item
    let values ← decodeItems decode path (position + 1) items
    .ok (value :: values)

def decodeList {α : Type} (decode : Path → Json → Decoded α) (path : Path) :
    Json → Decoded (List α)
  | .list items => decodeItems decode path 0 items
  | other => failAt path (.expectedList other.typeName)

namespace ScalarKind

def decode (kind : ScalarKind) (context : Context) (path : Path) (json : Json) : Decoded Scalar :=
  match kind with
  | .string => .string <$> Scalar.decodeString path json
  | .iri => .string <$> Scalar.decodeIri context path json
  | .boolean => .boolean <$> Scalar.decodeBoolean path json
  | .integer => .integer <$> Scalar.decodeInteger path json
  | .float => .float <$> Scalar.decodeFloat path json
  | .dateTime => .dateTime <$> Scalar.decodeDateTime false path json
  | .dateTimeStamp => .dateTime <$> Scalar.decodeDateTime true path json

/-- Writes a value of the kind. Floats are written as text. -/
def encode (kind : ScalarKind) (context : Context) : Scalar → Json
  | .string value => .string (if kind = .iri then context.compact value else value)
  | .boolean value => .bool value
  | .integer value => .integer value.toInt
  | .float value => .string value.text
  | .dateTime value => .string value.text

end ScalarKind

end ShapedGraph

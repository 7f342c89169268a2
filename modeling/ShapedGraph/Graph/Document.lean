import ShapedGraph.Graph.Walk
import ShapedGraph.Json.Reader
import ShapedGraph.Json.Writer
import ShapedGraph.Object.Decode
import ShapedGraph.Object.Encode

/-! Documents: a context, and either the members of a single root object or a list of root objects.
Reading a document adds all of its roots to a graph or none of them. -/

namespace ShapedGraph

/-- Why a document cannot be read: it is not JSON, or not of the model. -/
inductive DocumentError where
  | notJson
  | decode (cause : DecodeError)

/-- The length of the longest path of an object, where nothing else is asked for. -/
def defaultMaxDepth : Nat := 256

namespace Decoder

/-- The context is the one of the model. -/
def checkContext (d : Decoder) (members : List (String × Json)) : Decoded Unit :=
  match Members.get? members "@context" with
  | none => failAt .root .missingContext
  | some (.string found) =>
    if found = d.registry.contextUrl then .ok ()
    else failAt (Path.root.member "@context") (.wrongContext found)
  | some _ => failAt (Path.root.member "@context") .contextNotString

def decodeRoots (d : Decoder) (json : Json) : Decoded (List Object) :=
  match json with
  | .object members => do
    d.checkContext members
    match Members.get? members "@graph" with
    | some graph =>
      match members.find? fun (key, _) => key ≠ "@context" ∧ key ≠ "@graph" with
      | some (key, _) => failAt .root (.unknownTopLevelKey key)
      | none =>
        decodeList (fun path json => d.decodeObject path none json)
          (Path.root.member "@graph") graph
    | none => do
      let o ← d.decodeObject .root none (.object (Members.erase members "@context"))
      .ok [o]
  | other => failAt .root (.expectedObject other.typeName)

end Decoder

namespace Graph

def decode (graph : Graph) (maxDepth : Nat) (json : Json) : Decoded Graph :=
  graph.addAll <$> (Decoder.mk graph.registry maxDepth).decodeRoots json

/-- Adds the roots of a document that is given as bytes. -/
def decodeBytes (graph : Graph) (maxDepth : Nat) (bytes : ByteArray) :
    Except DocumentError Graph :=
  match Json.ofBytes? bytes with
  | none => .error .notJson
  | some json => (graph.decode maxDepth json).mapError .decode

/-- The roots of a graph, written one after the other. -/
def encodeRoots : List Root → Seen → List (Members Json)
  | [], _ => []
  | root :: roots, seen =>
    let (members, seen) := root.object.encode seen
    members :: encodeRoots roots seen

/-- The document of a graph. Every root is written in full in its own place and counts as written
everywhere else. A single root shares the document's members, and several are listed. -/
def toJson (graph : Graph) : Json :=
  let seen : Seen := graph.roots.filterMap (·.handle)
  let context : Members Json := [("@context", .string graph.registry.contextUrl)]
  match encodeRoots graph.roots seen with
  | [] => .object context
  | [members] => .object (Members.union context members)
  | roots => .object (Members.insert context "@graph" (.list (roots.map .object)))

end Graph

end ShapedGraph

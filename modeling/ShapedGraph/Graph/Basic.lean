import ShapedGraph.Object.Basic

/-! Graphs: the root objects of documents over one registry. -/

namespace ShapedGraph

/-- A root object, with the handle that other references to it carry. -/
structure Root where
  handle : Option Nat
  object : Object

structure Graph where
  registry : Registry
  roots : List Root

def Root.reference (root : Root) : Reference := .object root.handle root.object

namespace Graph

def empty (registry : Registry) : Graph := ⟨registry, []⟩

def add (graph : Graph) (root : Root) : Graph := { graph with roots := graph.roots ++ [root] }

def addAll (graph : Graph) (objects : List Object) : Graph :=
  { graph with roots := graph.roots ++ objects.map (⟨none, ·⟩) }

def size (graph : Graph) : Nat := graph.roots.length

end Graph

end ShapedGraph

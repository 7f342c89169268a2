import ShapedGraph.Pattern.Automaton
import ShapedGraph.Pattern.Reader
import ShapedGraph.Pattern.Size

/-! Patterns: regular expressions that texts are searched for. -/

namespace ShapedGraph

/-- A regular expression, as the automaton that searches for its matches, together with the text
that writes it. -/
structure Pattern where
  source : String
  automaton : Automaton
deriving DecidableEq

namespace Pattern

/-- The pattern that a text writes, if it follows the syntax and is not too large. -/
def compile? (source : String) : Option Pattern := do
  let expression ← readExpression source
  if expression.fits then some ⟨source, .ofExpression expression⟩ else none

def isFoundIn (pattern : Pattern) (text : String) : Bool :=
  pattern.automaton.isFoundIn text.toList

end Pattern

end ShapedGraph

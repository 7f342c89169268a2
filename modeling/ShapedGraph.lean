import ShapedGraph.Field
import ShapedGraph.Workspace.Run
import ShapedGraph.Proofs.Acceptance
import ShapedGraph.Proofs.Addition
import ShapedGraph.Proofs.Constraints
import ShapedGraph.Proofs.Deepening
import ShapedGraph.Proofs.Displacement
import ShapedGraph.Proofs.EmptyMembers
import ShapedGraph.Proofs.ErrorPaths
import ShapedGraph.Proofs.Fallbacks
import ShapedGraph.Proofs.Fields
import ShapedGraph.Proofs.Gathering
import ShapedGraph.Proofs.Inheritance
import ShapedGraph.Proofs.Insertions
import ShapedGraph.Proofs.Instants
import ShapedGraph.Proofs.KeyAccess
import ShapedGraph.Proofs.Numerals
import ShapedGraph.Proofs.Places
import ShapedGraph.Proofs.ReferenceLists
import ShapedGraph.Proofs.Retention
import ShapedGraph.Proofs.Roots
import ShapedGraph.Proofs.Runs
import ShapedGraph.Proofs.Selection
import ShapedGraph.Proofs.Shadowing
import ShapedGraph.Proofs.Spelling
import ShapedGraph.Proofs.Survival
import ShapedGraph.Proofs.Unfolding
import ShapedGraph.Proofs.Verbatim
import ShapedGraph.Proofs.Written

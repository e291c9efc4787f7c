import HandleScript.Main
import HandleScript.Proofs.Bisimilarity
import HandleScript.Proofs.ControlFlow
import HandleScript.Proofs.Depth
import HandleScript.Proofs.ForLoop
import HandleScript.Proofs.Frame
import HandleScript.Proofs.Parser.Completeness
import HandleScript.Proofs.RecursionLimit
import HandleScript.Proofs.Scoping
import HandleScript.Proofs.Acts
import HandleScript.Proofs.Rendering
import HandleScript.Proofs.Termination
import HandleScript.Proofs.Arguments
import HandleScript.Proofs.Requests
import HandleScript.Proofs.ScopeTree
import HandleScript.Proofs.Chains
import HandleScript.Proofs.Lengths
import HandleScript.Proofs.Resolution
import HandleScript.Proofs.Lexer.Coverage
import HandleScript.Proofs.Parser.Composition
import HandleScript.Proofs.Declarations
import HandleScript.Proofs.Parser.Spans
import HandleScript.Proofs.Origins
import HandleScript.Proofs.Reset
import HandleScript.Proofs.Atomicity
import HandleScript.Proofs.ConsoleLines
import HandleScript.Proofs.Parser.Nesting
import HandleScript.Proofs.Parser.Refusals
import HandleScript.Proofs.LoopExits
import HandleScript.Proofs.IndexedAccess
import HandleScript.Proofs.Iterators
import HandleScript.Proofs.CompoundAssignment
import HandleScript.Proofs.EditDistance
import HandleScript.Proofs.Suggestions
import HandleScript.Proofs.NameErrors
import HandleScript.Proofs.Lexer.Literals
import HandleScript.Proofs.IntegerTexts
import HandleScript.Proofs.Splitting
import HandleScript.Proofs.Equalities
import HandleScript.Proofs.Positions
import HandleScript.Proofs.Parser.Hygiene
import HandleScript.Proofs.Parser.Progress

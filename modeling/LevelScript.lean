import LevelScript.Main
import LevelScript.Proofs.Checker.Unambiguity
import LevelScript.Proofs.Evaluation.Footprint
import LevelScript.Proofs.Evaluation.Return
import LevelScript.Proofs.Evaluation.Safety
import LevelScript.Proofs.Parser.Sublanguage
import LevelScript.Proofs.Scope.Calls
import LevelScript.Proofs.Evaluation.BlockScope
import LevelScript.Proofs.Text.Scan
import LevelScript.Proofs.Parser.Layout
import LevelScript.Proofs.Evaluation.Tracking
import LevelScript.Proofs.Parser.Renumbering
import LevelScript.Proofs.Token.Joining
import LevelScript.Proofs.Session.Concatenation
import LevelScript.Proofs.Evaluation.Purity
import LevelScript.Proofs.Evaluation.Operands
import LevelScript.Proofs.Command.Path
import LevelScript.Proofs.Command.Output
import LevelScript.Proofs.Evaluation.Inventory
import LevelScript.Proofs.Checker.StackDepth
import LevelScript.Proofs.Token.RoundTrip
import LevelScript.Proofs.Text.Idempotence
import LevelScript.Proofs.Evaluation.Independence
import LevelScript.Proofs.Evaluation.Foresight
import LevelScript.Proofs.Evaluation.Atomicity
import LevelScript.Proofs.Evaluation.Potion
import LevelScript.Proofs.Evaluation.Attack
import LevelScript.Proofs.Evaluation.ElementAssignment
import LevelScript.Proofs.Parser.Numbering
import LevelScript.Proofs.Parser.Termination
import LevelScript.Proofs.Checker.Reduction
import LevelScript.Proofs.Checker.BlockComment
import LevelScript.Proofs.Checker.Count

import LevelScript.Evaluation.Node
import LevelScript.Parser.Source
import LevelScript.Text.Comment

set_option autoImplicit false

namespace LevelScript

structure Datum where
  type : TypeName
  value : Value
  deriving Repr

/-- How the evaluation of a node ended; operands are read at the end. -/
inductive Ending where
  | done (result : Option Datum)
  | fault (cause : Fault)
  | returned (result : Datum)
  | tooDeep
  | unfinished
  deriving Repr

def Operand.datum (forest : Forest) (operand : Operand) : Datum :=
  ⟨operand.type, operand.value forest⟩

def Ending.of (forest : Forest) : Except Stop (Option Operand) → Ending
  | .ok result => .done (result.map (·.datum forest))
  | .error (.fault cause) => .fault cause
  | .error (.returned operand) => .returned (operand.datum forest)
  | .error .tooDeep => .tooDeep
  | .error .unfinished => .unfinished

structure Session where
  forest : Forest
  root : ScopeId
  /-- How many nodes have been numbered. -/
  built : Nat
  deriving Repr

namespace Session

/-- Nodes are evaluated inside one another at most this deeply. What else a machine keeps of an
evaluation is not counted. -/
def maxDepth : Nat := 1000

def maxRounds : Nat := Nat.pow 10 18

def start : Session :=
  let (root, forest) := Forest.empty.grow none
  ⟨forest, root, 0⟩

def globals (session : Session) : List Row :=
  session.forest.rows session.root

def evaluate (titles : Titles) (session : Session) (node : Node) :
    Ending × List Event × Session :=
  let (result, world) :=
    (Evaluation.evaluate maxRounds maxDepth node session.root).run ⟨session.forest, #[], titles⟩
  (.of world.forest result, world.events.toList, { session with forest := world.forest })

end Session

inductive Outcome where
  | rejected (fault : SourceFault)
  | evaluated (ending : Ending)
  deriving Repr

structure Report where
  outcome : Outcome
  events : List Event
  globals : List Row
  deriving Repr

namespace Session

def run (titles : Titles) (session : Session) (source : String) : Report × Session :=
  match Construct.program.parse session.built (Text.removeComments source) with
  | .error fault => (⟨.rejected fault, [], session.globals⟩, session)
  | .ok (node, state) =>
    let (ending, events, after) := { session with built := state.built }.evaluate titles node
    (⟨.evaluated ending, events, after.globals⟩, after)

def runAll (titles : Titles) (session : Session) : List String → List Report
  | [] => []
  | source :: sources =>
    let (report, after) := session.run titles source
    report :: after.runAll titles sources

end Session

end LevelScript

import LevelScript.Evaluation.Action

/-!
# Evaluation of nodes

One step evaluates a node when the nodes inside it can be evaluated; a whole evaluation is that
step nested to a given depth. Scope is dynamic: a call opens a scope inside the caller's. A block
directly inside a block opens one too, other blocks do not. The rounds of a loop are bounded by a
number that only a loop without end should use up.
-/

set_option autoImplicit false

namespace LevelScript.Evaluation

def elements (eval : Evaluator) (scope : ScopeId) : List Node → Evaluation (List Value)
  | [] => return []
  | node :: rest => do
    let first ← valueOf (← eval node scope)
    return first :: (← elements eval scope rest)

def access (eval : Evaluator) (scope : ScopeId) (array index : Node) : Evaluation Operand := do
  match ← eval array scope with
  | none => raise (.shape .accessedValue)
  | some array =>
    if array.type ≠ .array then raise (.type .accessOfNonArray)
    match ← eval index scope with
    | none => raise (.shape .indexValue)
    | some index =>
      if index.type ≠ .number then raise (.type .indexNonNumber)
      element (← read array) (← read index)

def length (eval : Evaluator) (scope : ScopeId) (array : Node) : Evaluation Operand := do
  let result ← eval array scope
  if (← typeOf result) ≠ .array then raise (.type .lengthOfNonArray)
  let length ← ofExcept .value (← valueOf result).length
  return .temporary .number (.number length)

def assignment (eval : Evaluator) (scope : ScopeId) (target value : Node) : Evaluation Unit := do
  match target with
  | .identifier _ name =>
    match ← eval value scope with
    | none => raise (.shape .assignedValue)
    | some operand => assign scope name operand.type (← read operand)
  | _ => raise (.shape .assignmentTarget)

def nameOf (node : Node) : Evaluation String :=
  match node.name? with
  | some name => return name
  | none => raise (.shape (.nameless node.kind))

def declaration (eval : Evaluator) (scope : ScopeId) (type : Option TypeName) (label : Node)
    (value : Option Node) : Evaluation Unit := do
  let name ← nameOf label
  match type with
  | none => raise (.shape (.untypedDeclaration name))
  | some type =>
    match value with
    | none => declare scope name type .void false
    | some node =>
      match ← eval node scope with
      | none => raise (.shape .initialValue)
      | some operand =>
        if type ≠ operand.type then raise (.type (.initialType name type operand.type))
        declare scope name type (← read operand) false

/-- The commands of a block in turn, an inner block in a scope of its own. -/
def commands (eval : Evaluator) (scope : ScopeId) : List Node → Evaluation Unit
  | [] => return ()
  | node :: rest => do
    if node.isBlock then
      let _ ← eval node (← enclose scope)
    else
      let _ ← eval node scope
    commands eval scope rest

def holds (eval : Evaluator) (scope : ScopeId) (condition : Node) (fault : TypeFault) :
    Evaluation Bool := do
  match ← eval condition scope with
  | none => raise (.type fault)
  | some operand =>
    if operand.type ≠ .boolean then raise (.type fault)
    return (← read operand).truth

def conditional (eval : Evaluator) (scope : ScopeId) (condition positive : Node)
    (negative : Option Node) : Evaluation (Option Operand) := do
  if ← holds eval scope condition .conditionOfIf then eval positive scope
  else
    match negative with
    | some node => eval node scope
    | none => return none

def loop (eval : Evaluator) (scope : ScopeId) (condition body : Node) :
    (rounds : Nat) → Evaluation Unit
  | 0 => stop .unfinished
  | rounds + 1 => do
    if ← holds eval scope condition .conditionOfLoop then
      let _ ← eval body scope
      loop eval scope condition body rounds

def result (eval : Evaluator) (scope : ScopeId) (value : Option Node) :
    Evaluation (Option Operand) := do
  match value with
  | none => stop (.returned (.temporary .void .void))
  | some node =>
    match ← eval node scope with
    | none => raise (.shape .resultValue)
    | some operand => stop (.returned operand)

def parameterName (parameter : Node) : Evaluation String :=
  match parameter.children with
  | label :: _ => nameOf label
  | [] => raise (.shape .missingPart)

/-- Evaluates the arguments of a call of `name` in `scope`, each before the next, and declares the
parameters with their values in `inner`. -/
def bindParameters (eval : Evaluator) (scope inner : ScopeId) (name : String) :
    (parameters arguments : List Node) → Evaluation Unit
  | parameter :: parameters, argument :: arguments => do
    let label ← parameterName parameter
    match ← eval argument scope with
    | none => raise (.shape .argument)
    | some operand =>
      if parameter.parameterType? ≠ some operand.type then raise (.type (.argumentType name))
      declare inner label operand.type (← read operand) false
      bindParameters eval scope inner name parameters arguments
  | _, _ => return ()

def returnedBy (body : Evaluation Unit) : Evaluation (Option Operand) :=
  (body.bind fun _ => .done none).recover fun reason =>
    match reason with
    | .returned operand => return some operand
    | other => stop other

def outcome (name : String) (result : Option TypeName) (returned : Option Operand) :
    Evaluation Operand := do
  match result, returned with
  | none, _ => return .temporary .void .void
  | some type, some operand =>
    if operand.type ≠ type then raise (.type (.resultType name))
    return operand
  | some type, none => raise (.type (.missingResult name type))

def call (eval : Evaluator) (scope : ScopeId) (name : String) (arguments : List Node) :
    Evaluation Operand := do
  let (_, row) ← resolve scope name
  match row.isFunction, row.value with
  | true, .function f =>
    if f.parameters.length ≠ arguments.length then raise (.type (.argumentCount name))
    let inner ← enclose scope
    bindParameters eval scope inner name f.parameters arguments
    match f.body? with
    | none => raise (.shape .missingPart)
    | some body => outcome name f.result (← returnedBy (discard (eval body inner)))
  | true, other => raise (.absent other.kind .parts)
  | false, _ => raise (.type (.notFunction name))

def declareFunction (scope : ScopeId) (f : Function) : Evaluation Unit :=
  declare scope f.name (f.result.getD .void) (.function f) true

/-- Evaluates a node, the nodes inside it by `eval`. -/
def step (rounds : Nat) (eval : Evaluator) : Evaluator := fun node scope =>
  match node with
  | .blank _ => return none
  | .number _ value => return some (.temporary .number (.number value))
  | .boolean _ value => return some (.temporary .boolean (.boolean value))
  | .text _ value => return some (.temporary .text (.text value))
  | .literal _ kind value => return some (.temporary kind.type (.ofLiteral value))
  | .identifier _ name => do
    let (owner, row) ← resolve scope name
    return some (.variable owner row)
  | .binary _ op left right => do
    let left ← eval left scope
    let right ← eval right scope
    return some (← binary op left right)
  | .unary _ op operand => do
    return some (← unary op (← eval operand scope))
  | .array _ nodes => do
    return some (.temporary .array (.array (← elements eval scope nodes)))
  | .access _ array index => do
    return some (← access eval scope array index)
  | .length _ array => do
    return some (← length eval scope array)
  | .call _ name arguments => do
    return some (← call eval scope name arguments)
  | .assignment _ target value => do
    assignment eval scope target value
    return none
  | .declaration _ type label value => do
    declaration eval scope type label value
    return none
  | .function id name type parts => do
    declareFunction scope ⟨id, name, type, parts⟩
    return none
  | .block _ nodes => do
    commands eval scope nodes
    return none
  | .skip _ => return none
  | .conditional _ condition positive negative =>
    conditional eval scope condition positive negative
  | .loop _ condition body => do
    loop eval scope condition body rounds
    return none
  | .result _ value => result eval scope value
  | .action _ name arguments => do
    action eval scope name arguments
    return none

/-- Evaluates a node with at most `depth` evaluations inside one another. -/
def evaluate (rounds : Nat) : (depth : Nat) → Evaluator
  | 0 => fun _ _ => stop .tooDeep
  | depth + 1 => step rounds (evaluate rounds depth)

end LevelScript.Evaluation

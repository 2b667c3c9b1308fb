import LevelScript.Fault

/-!
# The world of an evaluation

An evaluation changes a forest of scopes and adds events, step by step, and both stay as they are
when it stops. Its result is an operand: a value of its own, or a variable that is read only when
its value is needed, so that later changes show.
-/

set_option autoImplicit false

namespace LevelScript

/-- How long to wait. A truth value stands for a second or none and is kept as it is. -/
inductive Duration where
  | seconds (count : Nat)
  | truth (value : Bool)
  deriving DecidableEq, Repr

def Duration.count : Duration → Nat
  | .seconds count => count
  | .truth value => if value then 1 else 0

inductive Event where
  | line (text : String)
  | wait (duration : Duration)
  deriving DecidableEq, Repr

structure World where
  forest : Forest
  events : Array Event
  /-- The same at all times. -/
  titles : Titles

inductive Operand where
  | temporary (type : TypeName) (value : Value)
  /-- A row of scope `owner`, as it was when it was looked up. -/
  | variable (owner : ScopeId) (row : Row)
  deriving Repr

namespace Operand

/-- The type of an operand; that of a row never changes. -/
def type : Operand → TypeName
  | .temporary type _ => type
  | .variable _ row => row.type

def value (forest : Forest) : Operand → Value
  | .temporary _ value => value
  | .variable owner row => forest.currentValue owner row

end Operand

inductive Stop where
  | fault (cause : Fault)
  | returned (operand : Operand)
  /-- Evaluations were nested too deeply. -/
  | tooDeep
  /-- A loop went on for more rounds than were allowed. -/
  | unfinished
  deriving Repr

/-- An evaluation in steps: each one changes the world and goes on with what it has become. -/
inductive Evaluation (α : Type) : Type where
  | done (result : α)
  | stopped (reason : Stop)
  | act (update : World → World) (next : World → Evaluation α)

namespace Evaluation

def bind {α β : Type} : Evaluation α → (α → Evaluation β) → Evaluation β
  | .done result, f => f result
  | .stopped reason, _ => .stopped reason
  | .act update next, f => .act update fun world => (next world).bind f

def recover {α : Type} (handle : Stop → Evaluation α) : Evaluation α → Evaluation α
  | .done result => .done result
  | .stopped reason => handle reason
  | .act update next => .act update fun world => (next world).recover handle

instance : Monad Evaluation where
  pure := .done
  bind := bind

def run {α : Type} : Evaluation α → World → Except Stop α × World
  | .done result, world => (.ok result, world)
  | .stopped reason, world => (.error reason, world)
  | .act update next, world =>
    let changed := update world
    (next changed).run changed

def moments {α : Type} : Evaluation α → World → List World
  | .done _, world => [world]
  | .stopped _, world => [world]
  | .act update next, world => world :: (next (update world)).moments (update world)

def stop {α : Type} (reason : Stop) : Evaluation α :=
  .stopped reason

def raise {α : Type} (cause : Fault) : Evaluation α :=
  .stopped (.fault cause)

def change (update : World → World) : Evaluation Unit :=
  .act update fun _ => .done ()

def forest : Evaluation Forest :=
  .act id fun world => .done world.forest

def titles : Evaluation Titles :=
  .act id fun world => .done world.titles

def emit (event : Event) : Evaluation Unit :=
  change fun world => { world with events := world.events.push event }

def say (text : String) : Evaluation Unit :=
  emit (.line text)

def ofExcept {ε α : Type} (fault : ε → Fault) : Except ε α → Evaluation α
  | .ok result => return result
  | .error cause => raise (fault cause)

def resolve (scope : ScopeId) (name : String) : Evaluation (ScopeId × Row) := do
  ofExcept .scope ((← forest).resolve scope name)

def assign (scope : ScopeId) (name : String) (type : TypeName) (value : Value) :
    Evaluation Unit := do
  let owner ← ofExcept .scope ((← forest).target scope name type)
  change fun world => { world with forest := world.forest.write owner name value }

def declare (scope : ScopeId) (name : String) (type : TypeName) (value : Value)
    (isFunction : Bool) : Evaluation Unit := do
  let row ← ofExcept .scope ((← forest).newRow scope name type value isFunction)
  change fun world => { world with forest := world.forest.add scope row }

def enclose (parent : ScopeId) : Evaluation ScopeId := do
  let id := (← forest).scopes.size
  change fun world => { world with forest := (world.forest.grow (some parent)).2 }
  return id

def read (operand : Operand) : Evaluation Value := do
  return operand.value (← forest)

def typeOf (result : Option Operand) : Evaluation TypeName :=
  match result with
  | some operand => return operand.type
  | none => raise (.absent .void .type)

def valueOf (result : Option Operand) : Evaluation Value :=
  match result with
  | some operand => read operand
  | none => raise (.absent .void .value)

def display (value : Value) : Evaluation String := do
  ofExcept .numeral (value.display (← titles))

/-- How a node is evaluated in a scope. A statement has no result. -/
abbrev Evaluator : Type :=
  Node → ScopeId → Evaluation (Option Operand)

end Evaluation

end LevelScript

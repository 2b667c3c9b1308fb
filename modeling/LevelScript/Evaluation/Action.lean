import LevelScript.Evaluation.Operator

set_option autoImplicit false

namespace LevelScript.Evaluation

def sayAction (eval : Evaluator) (scope : ScopeId) (arguments : List Node) :
    Evaluation Unit := do
  match arguments with
  | [argument] =>
    let result ← eval argument scope
    say (← display (← valueOf result))
  | _ => raise (.action .sayCount)

def longestWait : Nat := 9223372036

def waitFor (duration : Value) : Evaluation Unit :=
  match duration with
  | .number seconds =>
    if longestWait < seconds.natAbs then raise (.wait .tooLong)
    else if seconds < 0 then raise (.wait .negative)
    else emit (.wait (.seconds seconds.toNat))
  | .boolean value => emit (.wait (.truth value))
  | other => raise (.value (.notDuration other.kind))

def waitAction (eval : Evaluator) (scope : ScopeId) (arguments : List Node) :
    Evaluation Unit := do
  match arguments with
  | [argument] =>
    let result ← eval argument scope
    if (← typeOf result) ≠ .number then raise (.action .waitNonNumber)
    waitFor (← valueOf result)
  | _ => raise (.action .waitCount)

def moveAction (eval : Evaluator) (scope : ScopeId) (arguments : List Node) :
    Evaluation Unit := do
  match arguments with
  | [argument] =>
    let result ← eval argument scope
    if (← typeOf result) ≠ .number then raise (.action .moveNonNumber)
    say ("Movendo " ++ (← display (← valueOf result)) ++ " unidades")
  | _ => raise (.action .moveCount)

/-- Leaves the variable `name` with `points`. The report begins with `lead`, which is found after
the change; an enemy without points is beaten. -/
def strike (scope : ScopeId) (name : String) (points : Value) (lead : Evaluation String) :
    Evaluation Unit := do
  assign scope name .number points
  let lead ← lead
  say (lead ++ "! " ++ name ++ " agora = " ++ (← display points))
  if ← ofExcept .value (Value.order .atMost points (.number 0)) then
    say "Inimigo derrotado!"

def attackAction (eval : Evaluator) (scope : ScopeId) (arguments : List Node) :
    Evaluation Unit := do
  match arguments with
  | [] =>
    match (← forest).resolve scope "enemy_hp" with
    | .error _ => raise (.action .noEnemy)
    | .ok (_, enemy) =>
      if enemy.type ≠ .number then raise (.action .enemyNonNumber)
      let points ← ofExcept .value (Value.arithmetic .subtract enemy.value (.number 1))
      strike scope "enemy_hp" points (return "Atacado")
  | [.identifier id name] =>
    let target ← eval (.identifier id name) scope
    if (← typeOf target) ≠ .number then raise (.action .targetNonNumber)
    let points ← ofExcept .value (Value.arithmetic .subtract (← valueOf target) (.number 1))
    strike scope name points (return "Atacado")
  | [_] => raise (.action .targetNotName)
  | [.identifier id name, damage] =>
    let target ← eval (.identifier id name) scope
    let damage ← eval damage scope
    if (← typeOf target) ≠ .number then raise (.action .attackNonNumbers)
    if (← typeOf damage) ≠ .number then raise (.action .attackNonNumbers)
    let points ←
      ofExcept .value (Value.arithmetic .subtract (← valueOf target) (← valueOf damage))
    strike scope name points (return "Atacado com " ++ (← display (← valueOf damage)))
  | [_, _] => raise (.action .firstNotName)
  | _ => raise (.action .attackCount)

def inventory? (forest : Forest) (scope : ScopeId) : Option (List Value) :=
  match forest.resolve scope "inventory" with
  | .ok (_, row) => if row.type = .array then row.value.items? else none
  | .error _ => none

def withInventory? (forest : Forest) (scope : ScopeId) (items : List Value) : Option Forest :=
  match forest.assign scope "inventory" .array (.array items) with
  | .ok changed => some changed
  | .error _ => none

/-- The item of `gather`: a text, or the written form of anything else. -/
def gatheredItem (eval : Evaluator) (scope : ScopeId) : Node → Evaluation Value
  | .identifier _ name => return .text name
  | argument => do
    let result ← eval argument scope
    if (← typeOf result) = .text then valueOf result
    else return .text (← display (← valueOf result))

def gatherAction (eval : Evaluator) (scope : ScopeId) (arguments : List Node) :
    Evaluation Unit := do
  match arguments with
  | [argument] =>
    let item ← gatheredItem eval scope argument
    let forest ← forest
    match (inventory? forest scope).bind fun items => withInventory? forest scope (items ++ [item])
      with
    | some changed =>
      change fun world => { world with forest := changed }
      say ("Item '" ++ (← display item) ++ "' adicionado ao inventory")
    | none => say ("Item coletado: " ++ (← display item))
  | _ => raise (.action .gatherCount)

def numberOr (forest : Forest) (scope : ScopeId) (name : String) (other : Value) : Value :=
  match forest.resolve scope name with
  | .ok (_, row) => if row.type = .number then row.value else other
  | .error _ => other

def withoutPotion? (items : List Value) : Option (List Value) :=
  if items.any (·.same (.text "potion")) then
    some (items.eraseP (·.same (.text "potion")))
  else none

def usePotion (scope : ScopeId) : Evaluation Unit := do
  match (← forest).resolve scope "health" with
  | .error _ => raise (.action .noHealth)
  | .ok (_, health) =>
    if health.type ≠ .number then raise (.action .healthNonNumber)
    let heal := numberOr (← forest) scope "potion_heal" (.number 50)
    let total ← ofExcept .value (Value.arithmetic .add health.value heal)
    let most := numberOr (← forest) scope "max_health" total
    let points := if ← ofExcept .value (Value.order .less most total) then most else total
    assign scope "health" .number points
    let forest ← forest
    match (inventory? forest scope).bind fun items =>
      (withoutPotion? items).bind (withInventory? forest scope) with
    | some changed => change fun world => { world with forest := changed }
    | none => pure ()
    say ("Você usou uma potion. Vida agora = " ++ (← display points))

def useAction (eval : Evaluator) (scope : ScopeId) (arguments : List Node) :
    Evaluation Unit := do
  match arguments with
  | [argument] =>
    let item ←
      match argument with
      | .identifier _ name => pure (Value.text name)
      | argument => do valueOf (← eval argument scope)
    let shown ← display item
    if shown = "potion" then usePotion scope else say ("Usando " ++ shown)
  | _ => raise (.action .useCount)

def action (eval : Evaluator) (scope : ScopeId) (name : ActionName) (arguments : List Node) :
    Evaluation Unit :=
  match name with
  | .say => sayAction eval scope arguments
  | .wait => waitAction eval scope arguments
  | .move => moveAction eval scope arguments
  | .attack => attackAction eval scope arguments
  | .gather => gatherAction eval scope arguments
  | .use => useAction eval scope arguments
  | .other name => raise (.shape (.unknownAction name))

end LevelScript.Evaluation

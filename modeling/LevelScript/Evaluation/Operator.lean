import LevelScript.Evaluation.Basic

set_option autoImplicit false

namespace LevelScript

def Connective.choose : Connective → Value → Value → Value
  | .and, left, right => if left.truth then right else left
  | .or, left, right => if left.truth then left else right

def BinaryOp.apply (op : BinaryOp) (leftType : TypeName) (left : Value) (rightType : TypeName)
    (right : Value) : Except Fault (TypeName × Value) :=
  match op with
  | .arithmetic op =>
    if leftType ≠ .number ∨ rightType ≠ .number then .error (.type (.notNumbers op))
    else if op = .divide ∧ right.same (.number 0) then .error (.type .divisionByZero)
    else
      match Value.arithmetic op left right with
      | .ok value => .ok (.number, value)
      | .error cause => .error (.value cause)
  | .equal =>
    if leftType ≠ rightType then .error (.type (.differentTypes op))
    else .ok (.boolean, .boolean (left.same right))
  | .notEqual =>
    if leftType ≠ rightType then .error (.type (.differentTypes op))
    else .ok (.boolean, .boolean (!left.same right))
  | .order relation =>
    if leftType ≠ rightType then .error (.type (.differentTypes op))
    else
      match Value.order relation left right with
      | .ok holds => .ok (.boolean, .boolean holds)
      | .error cause => .error (.value cause)
  | .connective op =>
    if leftType ≠ .boolean ∨ rightType ≠ .boolean then .error (.type (.notBooleans op))
    else .ok (.boolean, op.choose left right)
  | .other spelling => .error (.shape (.unknownOperator spelling))

namespace Evaluation

def binary (op : BinaryOp) (left right : Option Operand) : Evaluation Operand := do
  match left, right with
  | some left, some right =>
    let (type, value) ←
      ofExcept id (op.apply left.type (← read left) right.type (← read right))
    return .temporary type value
  | _, _ => raise (.shape .operands)

/-- An operator that is neither a minus nor a negation gives its operand itself. -/
def unary (op : UnaryOp) (operand : Option Operand) : Evaluation Operand := do
  match operand with
  | none => raise (.shape .operand)
  | some operand =>
    match op with
    | .minus =>
      if operand.type ≠ .number then raise (.type .negatedNonNumber)
      return .temporary .number (← ofExcept .value (← read operand).negated)
    | .not =>
      if operand.type ≠ .boolean then raise (.type .invertedNonBoolean)
      return .temporary .boolean (.boolean (!(← read operand).truth))
    | .plus | .other _ => return operand

/-- The element of an array at a number. The index is tested from below before the length is
asked for. -/
def element (array index : Value) : Evaluation Operand := do
  if ← ofExcept .value (Value.order .less index (.number 0)) then
    raise (.type .indexOutOfRange)
  let length ← ofExcept .value array.length
  if ← ofExcept .value (Value.order .atLeast index (.number length)) then
    raise (.type .indexOutOfRange)
  let item ← ofExcept .value (array.item (index.integer?.getD 0).toNat)
  return .temporary item.elementType item

end Evaluation

end LevelScript

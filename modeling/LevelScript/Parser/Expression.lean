import LevelScript.Parser.Basic

set_option autoImplicit false

namespace LevelScript

namespace Token

def productOp? : Token → Option BinaryOp
  | .symbol .times => some (.arithmetic .multiply)
  | .symbol .divide => some (.arithmetic .divide)
  | _ => none

def sumOp? : Token → Option BinaryOp
  | .symbol .plus => some (.arithmetic .add)
  | .symbol .minus => some (.arithmetic .subtract)
  | _ => none

def relationOp? : Token → Option BinaryOp
  | .symbol .equal => some .equal
  | .symbol .notEqual => some .notEqual
  | .symbol .less => some (.order .less)
  | .symbol .greater => some (.order .greater)
  | .symbol .atMost => some (.order .atMost)
  | .symbol .atLeast => some (.order .atLeast)
  | _ => none

def logicalOp? : Token → Option BinaryOp
  | .symbol .and => some (.connective .and)
  | .symbol .or => some (.connective .or)
  | _ => none

end Token

namespace Parser

variable {σ : Type} [Tape σ]

/-- Joins `left` with the operands that follow, as long as an operator of this level stands before
each of them. -/
def chain (op? : Token → Option BinaryOp) (operand : Parser σ Node) :
    (bound : Nat) → (left : Node) → Parser σ Node
  | 0, _ => fail .exhausted
  | bound + 1, left => do
    match op? (← current) with
    | none => return left
    | some op =>
      advance
      let right ← operand
      let id ← fresh
      chain op? operand bound (.binary id op left right)

def level (op? : Token → Option BinaryOp) (bound : Nat) (operand : Parser σ Node) :
    Parser σ Node := do
  let left ← operand
  chain op? operand bound left

def termOver (bound : Nat) (factor : Parser σ Node) : Parser σ Node :=
  level Token.productOp? bound factor

def sumOver (bound : Nat) (factor : Parser σ Node) : Parser σ Node :=
  level Token.sumOp? bound (termOver bound factor)

def relationOver (bound : Nat) (factor : Parser σ Node) : Parser σ Node :=
  level Token.relationOp? bound (sumOver bound factor)

def expressionOver (bound : Nat) (factor : Parser σ Node) : Parser σ Node :=
  level Token.logicalOp? bound (relationOver bound factor)

def callOf (bound : Nat) (expression : Parser σ Node) (name : String) : Parser σ Node := do
  symbol .leftParen
  let arguments ← commaList bound expression .rightParen
  return .call (← fresh) name arguments

def accessOf (expression : Parser σ Node) (name : String) : Parser σ Node := do
  symbol .leftBracket
  let index ← expression
  symbol .rightBracket
  let label ← fresh
  return .access (← fresh) (.identifier label name) index

def arrayLiteral (bound : Nat) (expression : Parser σ Node) : Parser σ Node := do
  symbol .leftBracket
  let elements ← commaList bound expression .rightBracket
  return .array (← fresh) elements

def lengthCall : Parser σ Node := do
  keyword .len
  symbol .leftParen
  let name ← name .identifier
  symbol .rightParen
  let label ← fresh
  return .length (← fresh) (.identifier label name)

def signed (op : UnaryOp) (factor : Parser σ Node) : Parser σ Node := do
  advance
  let operand ← factor
  return .unary (← fresh) op operand

def factorOver (bound : Nat) (factor : Parser σ Node) : Parser σ Node := do
  match ← current with
  | .symbol .plus => signed .plus factor
  | .symbol .minus => signed .minus factor
  | .number value =>
    advance
    return .number (← fresh) value
  | .keyword .trueWord =>
    advance
    return .boolean (← fresh) true
  | .keyword .falseWord =>
    advance
    return .boolean (← fresh) false
  | .text value =>
    advance
    return .text (← fresh) value
  | .symbol .leftParen =>
    advance
    let node ← expressionOver bound factor
    symbol .rightParen
    return node
  | .symbol .leftBracket => arrayLiteral bound (expressionOver bound factor)
  | .identifier name =>
    advance
    match ← current with
    | .symbol .leftParen => callOf bound (expressionOver bound factor) name
    | .symbol .leftBracket => accessOf (expressionOver bound factor) name
    | _ => return .identifier (← fresh) name
  | .keyword .len => lengthCall
  | token => fail (.invalidFactor token)

-- Each factor inside another one passes a token, so a bound on the tokens bounds the depth.
def factor : (bound : Nat) → Parser σ Node
  | 0 => fail .exhausted
  | bound + 1 => factorOver bound (factor bound)

def expression (bound : Nat) : Parser σ Node :=
  expressionOver bound (factor bound)

end Parser

end LevelScript

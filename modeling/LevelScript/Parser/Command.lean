import LevelScript.Parser.Expression

set_option autoImplicit false

namespace LevelScript

def Token.actionName : Token → ActionName
  | .keyword .say => .say
  | .keyword .wait => .wait
  | .keyword .move => .move
  | .keyword .attack => .attack
  | .keyword .gather => .gather
  | .keyword .use => .use
  | token => .other token.kind.toLower

namespace Parser

variable {σ : Type} [Tape σ]

def variableDeclaration (bound : Nat) : Parser σ Node := do
  match ← current with
  | .identifier name =>
    let label ← fresh
    advance
    symbol .colon
    let type ← typeName .type
    symbol .assign
    let value ← expression bound
    symbol .semicolon
    return .declaration (← fresh) (some type) (.identifier label name) (some value)
  | _ => fail (.expected .identifier)

def parameter : Parser σ Node := do
  let name ← name .parameter
  symbol .colon
  let type ← typeName .type
  let label ← fresh
  return .declaration (← fresh) (some type) (.identifier label name) none

def resultType : Parser σ (Option TypeName) := do
  if (← current) = .symbol .colon then
    advance
    return some (← typeName .resultType)
  else return none

/-- Commands up to a closing brace or the end; lone semicolons are passed over. -/
def commands (command : Parser σ Node) : (bound : Nat) → Parser σ (List Node)
  | 0 => fail .exhausted
  | bound + 1 => do
    match ← current with
    | .symbol .rightBrace => return []
    | .endOfInput => return []
    | .symbol .semicolon =>
      advance
      commands command bound
    | _ =>
      let first ← command
      let others ← commands command bound
      return first :: others

def blockOf (bound : Nat) (command : Parser σ Node) : Parser σ Node := do
  symbol .leftBrace
  let body ← commands command bound
  symbol .rightBrace
  return .block (← fresh) body

def conditionalOf (bound : Nat) (command : Parser σ Node) : Parser σ Node := do
  keyword .ifWord
  symbol .leftParen
  let condition ← expression bound
  symbol .rightParen
  let positive ← command
  if (← current) = .keyword .elseWord then
    advance
    let negative ← command
    return .conditional (← fresh) condition positive (some negative)
  else return .conditional (← fresh) condition positive none

def loopOf (bound : Nat) (command : Parser σ Node) : Parser σ Node := do
  keyword .untilWord
  symbol .leftParen
  let condition ← expression bound
  symbol .rightParen
  let body ← command
  return .loop (← fresh) condition body

def result (bound : Nat) : Parser σ Node := do
  keyword .returnWord
  if (← current) = .symbol .semicolon then
    advance
    return .result (← fresh) none
  else
    let value ← expression bound
    symbol .semicolon
    return .result (← fresh) (some value)

def action (bound : Nat) : Parser σ Node := do
  let name := (← current).actionName
  advance
  symbol .leftParen
  let arguments ← commaList bound (expression bound) .rightParen
  symbol .semicolon
  return .action (← fresh) name arguments

def call (bound : Nat) (name : String) : Parser σ Node :=
  callOf bound (expression bound) name

def access (bound : Nat) (name : String) : Parser σ Node :=
  accessOf (expression bound) name

def assignment (bound : Nat) (name : String) : Parser σ Node := do
  symbol .assign
  let value ← expression bound
  symbol .semicolon
  let label ← fresh
  return .assignment (← fresh) (.identifier label name) value

def elementAssignment (bound : Nat) (name : String) : Parser σ Node := do
  symbol .leftBracket
  -- the index has no part in the assignment
  let _ ← expression bound
  symbol .rightBracket
  assignment bound name

def namedCommand (bound : Nat) (name : String) : Parser σ Node := do
  advance
  match ← current with
  | .symbol .leftParen =>
    let node ← call bound name
    if (← current) = .symbol .semicolon then
      advance
      return node
    else fail (.expected .endOfCall)
  | .symbol .semicolon =>
    advance
    return .call (← fresh) name []
  | .symbol .assign => assignment bound name
  | .symbol .leftBracket => elementAssignment bound name
  | token => fail (.invalidAfterName token)

def commandOver (bound : Nat) (command : Parser σ Node) : Parser σ Node := do
  match ← current with
  | .symbol .semicolon =>
    advance
    return .skip (← fresh)
  | .identifier name =>
    if (← upcoming) = .symbol .colon then variableDeclaration bound
    else namedCommand bound name
  | .symbol .leftBrace => blockOf bound command
  | .keyword .ifWord => conditionalOf bound command
  | .keyword .untilWord => loopOf bound command
  | .keyword .returnWord => result bound
  | .keyword .move | .keyword .attack | .keyword .gather | .keyword .use | .keyword .say
  | .keyword .wait => action bound
  | token => fail (.invalidCommand token)

def command : (bound : Nat) → Parser σ Node
  | 0 => fail .exhausted
  | bound + 1 => commandOver bound (command bound)

def block (bound : Nat) : Parser σ Node :=
  blockOf bound (command bound)

def conditional (bound : Nat) : Parser σ Node :=
  conditionalOf bound (command bound)

def loop (bound : Nat) : Parser σ Node :=
  loopOf bound (command bound)

def functionDeclaration (bound : Nat) : Parser σ Node := do
  keyword .func
  let name ← name .identifier
  symbol .leftParen
  let parameters ← commaList bound parameter .rightParen
  let type ← resultType
  let body ← block bound
  let id ← fresh
  return .function id name type (.identifier (← fresh) name :: parameters ++ [body])

def members (inner : Nat) : (bound : Nat) → Parser σ (List Node)
  | 0 => fail .exhausted
  | bound + 1 => do
    match ← current with
    | .symbol .rightBrace => return []
    | .endOfInput => return []
    | .identifier _ =>
      if (← upcoming) = .symbol .colon then
        let first ← variableDeclaration inner
        let others ← members inner bound
        return first :: others
      else fail .memberWithoutColon
    | .keyword .func =>
      let first ← functionDeclaration inner
      let others ← members inner bound
      return first :: others
    | _ => fail .invalidMember

/-- An entity is a block of its members; its name is not kept. -/
def entityDeclaration (bound : Nat) : Parser σ Node := do
  keyword .entity
  let _ ← name .identifier
  symbol .leftBrace
  let members ← members bound bound
  symbol .rightBrace
  return .block (← fresh) members

def topLevel (bound : Nat) : Parser σ Node := do
  match ← current with
  | .keyword .func => functionDeclaration bound
  | .keyword .entity => entityDeclaration bound
  | _ => command bound

def topLevels (inner : Nat) : (bound : Nat) → Parser σ (List Node)
  | 0 => fail .exhausted
  | bound + 1 => do
    if (← current) = .endOfInput then return []
    else
      let first ← topLevel inner
      let others ← topLevels inner bound
      return first :: others

def program (bound : Nat) : Parser σ Node := do
  let nodes ← topLevels bound bound
  return .block (← fresh) nodes

end Parser

end LevelScript

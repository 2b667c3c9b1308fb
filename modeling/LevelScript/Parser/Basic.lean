import LevelScript.Node.Basic
import LevelScript.Token.Lexer

/-!
# Parsing steps

A parser moves along a tape of tokens and numbers the nodes that it builds. It stops at the first
fault, with the current token and the position that the reading of tokens had reached. The tape is a
lexer, which reads the tokens as they are asked for, or a cursor on tokens that have all been read.
-/

set_option autoImplicit false

namespace LevelScript

inductive Expectation where
  | identifier
  | parameter
  | type
  | resultType
  | symbol (mark : Symbol)
  | keyword (word : Keyword)
  | endOfCall
  deriving DecidableEq, Repr

def Expectation.phrase : Expectation → String
  | .identifier => "identificador"
  | .parameter => "identificador de parâmetro"
  | .type => "tipo"
  | .resultType => "tipo de retorno"
  | .symbol mark => "'" ++ mark.spelling ++ "'"
  | .keyword word => "'" ++ word.spelling ++ "'"
  | .endOfCall => "';' após chamada de função"

inductive ParseFault where
  | expected (what : Expectation)
  | invalidCommand (token : Token)
  | invalidAfterName (token : Token)
  | invalidFactor (token : Token)
  | invalidMember
  | memberWithoutColon
  | lexical (cause : LexFault)
  /-- The bound on the nesting was too small for the stream. -/
  | exhausted
  deriving DecidableEq, Repr

def ParseFault.message : ParseFault → String
  | .expected what => "[Parser] Esperado " ++ what.phrase
  | .invalidCommand token => "[Parser] Comando inválido: " ++ token.kind
  | .invalidAfterName token =>
    "[Parser] Comando inválido: token após identificador = " ++ token.kind
  | .invalidFactor token => "[Parser] Fator inválido: " ++ token.kind
  | .invalidMember => "[Parser] Membro de entidade inválido"
  | .memberWithoutColon =>
    "[Parser] Membro de entidade inválido: esperado ':' após identificador"
  | .lexical cause => cause.message
  | .exhausted => "[Parser] Limite excedido"

/-- What a parser moves along: it stands at a token and can go on to the next one. -/
class Tape (σ : Type) where
  token : σ → Token
  /-- The position after the token. -/
  position : σ → Nat
  /-- One token further, or the fault that stands there with the position that was reached. -/
  next : σ → Except (LexFault × Nat) σ
  /-- At least the number of tokens that follow. -/
  room : σ → Nat

instance : Tape Lexer where
  token lexer := lexer.token
  position lexer := lexer.position
  next lexer := lexer.selectNext
  room lexer := lexer.text.length

/-- The current token, the position after it and the finished stream of those that follow. -/
structure Cursor where
  token : Token
  position : Nat
  rest : TokenStream
  deriving DecidableEq, Repr

namespace Cursor

def ofStream : TokenStream → Except (LexFault × Nat) Cursor
  | .finish position => .ok ⟨.endOfInput, position, .finish position⟩
  | .broken cause position => .error (cause, position)
  | .next token position rest => .ok ⟨token, position, rest⟩

end Cursor

instance : Tape Cursor where
  token cursor := cursor.token
  position cursor := cursor.position
  next cursor := Cursor.ofStream cursor.rest
  room cursor := cursor.rest.length

structure ParseFailure where
  fault : ParseFault
  token : Token
  position : Nat
  deriving DecidableEq, Repr

structure ParseState (σ : Type) where
  tape : σ
  /-- How many nodes have been numbered. -/
  built : Nat
  deriving DecidableEq, Repr

abbrev Parser (σ α : Type) : Type :=
  StateT (ParseState σ) (Except ParseFailure) α

namespace Parser

variable {σ : Type} [Tape σ]

def current : Parser σ Token := do
  return Tape.token (← get).tape

def fail {α : Type} (fault : ParseFault) : Parser σ α := do
  let tape := (← get).tape
  throw ⟨fault, Tape.token tape, Tape.position tape⟩

def advance : Parser σ Unit := do
  let state ← get
  match Tape.next state.tape with
  | .ok tape => set { state with tape := tape }
  | .error (cause, position) => throw ⟨.lexical cause, Tape.token state.tape, position⟩

/-- The token after the current one: a step, a look, and back to where the tape was. -/
def upcoming : Parser σ Token := do
  let saved := (← get).tape
  advance
  let token ← current
  modify fun state => { state with tape := saved }
  return token

def fresh : Parser σ Nat := do
  let number := (← get).built + 1
  modify fun s => { s with built := number }
  return number

def symbol (mark : Symbol) : Parser σ Unit := do
  if (← current) = .symbol mark then advance else fail (.expected (.symbol mark))

def keyword (word : Keyword) : Parser σ Unit := do
  if (← current) = .keyword word then advance else fail (.expected (.keyword word))

def name (what : Expectation) : Parser σ String := do
  match ← current with
  | .identifier name => advance; return name
  | _ => fail (.expected what)

def typeName (what : Expectation) : Parser σ TypeName := do
  match ← current with
  | .keyword word =>
    match word.typeName? with
    | some type => advance; return type
    | none => fail (.expected what)
  | _ => fail (.expected what)

def commaTail {α : Type} (item : Parser σ α) : (bound : Nat) → Parser σ (List α)
  | 0 => fail .exhausted
  | bound + 1 => do
    if (← current) = .symbol .comma then
      advance
      let first ← item
      let others ← commaTail item bound
      return first :: others
    else return []

def commaList {α : Type} (bound : Nat) (item : Parser σ α) (closing : Symbol) :
    Parser σ (List α) := do
  if (← current) = .symbol closing then
    advance
    return []
  else
    let first ← item
    let others ← commaTail item bound
    symbol closing
    return first :: others

end Parser

end LevelScript

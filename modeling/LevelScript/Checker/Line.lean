import LevelScript.Checker.Lexeme
import LevelScript.Numeral

set_option autoImplicit false

namespace LevelScript.Checker

open Text (Bytes encodeUtf8)

inductive Line where
  | variable (name : Bytes)
  | function (name : Bytes)
  | entity (name : Bytes)
  | assignment (name : Bytes)
  | elementAssignment (name : Bytes)
  | conditional
  | loopUntil
  | loopDuring
  | result
  | move
  | attack
  | gather (name : Bytes)
  | use (name : Bytes)
  | say (content : Bytes)
  | wait (count : Int)
  | access (name : Bytes)
  | length (name : Bytes)
  | number (count : Int)
  | text (content : Bytes)
  | array
  | boolean (value : Bool)
  deriving DecidableEq, Repr

def Line.bytes : Line → Bytes
  | .variable name => encodeUtf8 "Variável declarada: " ++ name
  | .function name => encodeUtf8 "Função declarada: " ++ name
  | .entity name => encodeUtf8 "Entidade declarada: " ++ name
  | .assignment name => encodeUtf8 "Atribuição: " ++ name
  | .elementAssignment name => encodeUtf8 "Atribuição de array: " ++ name
  | .conditional => encodeUtf8 "Condicional if"
  | .loopUntil => encodeUtf8 "Loop until"
  | .loopDuring => encodeUtf8 "Loop during"
  | .result => encodeUtf8 "Comando return"
  | .move => encodeUtf8 "Ação: move"
  | .attack => encodeUtf8 "Ação: attack"
  | .gather name => encodeUtf8 "Ação: gather " ++ name
  | .use name => encodeUtf8 "Ação: use " ++ name
  | .say content => encodeUtf8 "Ação: say '" ++ content ++ encodeUtf8 "'"
  | .wait count => encodeUtf8 ("Ação: wait " ++ Numeral.decimal count)
  | .access name => encodeUtf8 "Acesso a array: " ++ name
  | .length name => encodeUtf8 "Chamada len: " ++ name
  | .number count => encodeUtf8 ("Número: " ++ Numeral.decimal count)
  | .text content => encodeUtf8 "String: '" ++ content ++ encodeUtf8 "'"
  | .array => encodeUtf8 "Array literal"
  | .boolean true => encodeUtf8 "Boolean: true"
  | .boolean false => encodeUtf8 "Boolean: false"

def Production.line? (production : Production) (texts : List Bytes) : Option Line :=
  match production, texts with
  | .variableDeclaration, name :: _ => some (.variable name)
  | .functionDeclaration, _ :: name :: _ => some (.function name)
  | .entityDeclaration, _ :: name :: _ => some (.entity name)
  | .assignment, name :: _ => some (.assignment name)
  | .elementAssignment, name :: _ => some (.elementAssignment name)
  | .conditional, _ => some .conditional
  | .loopUntil, _ => some .loopUntil
  | .loopDuring, _ => some .loopDuring
  | .result, _ => some .result
  | .actionMove, _ => some .move
  | .actionAttack, _ => some .attack
  | .actionGather, _ :: _ :: name :: _ => some (.gather name)
  | .actionUse, _ :: _ :: name :: _ => some (.use name)
  | .actionSay, _ :: _ :: text :: _ => some (.say (Lexeme.content text))
  | .actionWait, _ :: _ :: digits :: _ => some (.wait (Lexeme.number digits))
  | .access, name :: _ => some (.access name)
  | .lengthCall, _ :: _ :: name :: _ => some (.length name)
  | .literalNumber, digits :: _ => some (.number (Lexeme.number digits))
  | .literalText, text :: _ => some (.text (Lexeme.content text))
  | .arrayLiteral, _ => some .array
  | .booleanTrue, _ => some (.boolean true)
  | .booleanFalse, _ => some (.boolean false)
  | _, _ => none

end LevelScript.Checker

import LevelScript.Scope
import LevelScript.Value.Operation

set_option autoImplicit false

namespace LevelScript

/-- The tree is not one that a source has. -/
inductive ShapeFault where
  | operands
  | operand
  | unknownOperator (spelling : String)
  | assignmentTarget
  | assignedValue
  | untypedDeclaration (name : String)
  | initialValue
  | resultValue
  | argument
  | accessedValue
  | indexValue
  | unknownAction (name : String)
  /-- A name is asked of a node of a kind that has none. -/
  | nameless (kind : NodeKind)
  /-- A parameter has no label or a function no body. -/
  | missingPart
  deriving DecidableEq, Repr

def ShapeFault.message : ShapeFault → String
  | .operands => "[Semantic] Operandos inválidos"
  | .operand => "[Semantic] Operando inválido no unário"
  | .unknownOperator spelling => "[Semantic] Operador binário desconhecido: " ++ spelling
  | .assignmentTarget => "[Semantic] Lado esquerdo da atribuição deve ser um identificador"
  | .assignedValue => "[Semantic] Atribuição com valor inválido"
  | .untypedDeclaration name => "[Semantic] Tipo não especificado na declaração de " ++ name
  | .initialValue => "[Semantic] Inicializador inválido"
  | .resultValue => "[Semantic] Return com valor inválido"
  | .argument => "[Semantic] Argumento inválido"
  | .accessedValue => "[Semantic] Acesso a array: operando esquerdo não é variável"
  | .indexValue => "[Semantic] Índice inválido no acesso a array"
  | .unknownAction name => "[Semantic] Ação desconhecida: " ++ name
  | .nameless kind => "'" ++ kind.word ++ "' object has no attribute 'name'"
  | .missingPart => "list index out of range"

/-- The types, or an index or divisor, do not fit what is done with them. -/
inductive TypeFault where
  | notNumbers (op : Arithmetic)
  | divisionByZero
  | differentTypes (op : BinaryOp)
  | notBooleans (op : Connective)
  | negatedNonNumber
  | invertedNonBoolean
  | initialType (name : String) (expected found : TypeName)
  | conditionOfIf
  | conditionOfLoop
  | notFunction (name : String)
  | argumentCount (name : String)
  | argumentType (name : String)
  | resultType (name : String)
  | missingResult (name : String) (expected : TypeName)
  | accessOfNonArray
  | indexNonNumber
  | indexOutOfRange
  | lengthOfNonArray
  deriving DecidableEq, Repr

def TypeFault.message : TypeFault → String
  | .notNumbers op => "[Semantic] Operação " ++ op.spelling ++ " requer números"
  | .divisionByZero => "[Semantic] Divisão por zero"
  | .differentTypes op => "[Semantic] Operação " ++ op.spelling ++ " requer tipos iguais"
  | .notBooleans .and => "[Semantic] Operação AND requer booleanos"
  | .notBooleans .or => "[Semantic] Operação OR requer booleanos"
  | .negatedNonNumber => "[Semantic] Operador '-' requer número"
  | .invertedNonBoolean => "[Semantic] Operador '!' requer booleano"
  | .initialType name expected found =>
    "[Semantic] Tipo incompatível na declaração de " ++ name ++ ": esperado " ++ expected.name ++
      ", obtido " ++ found.name
  | .conditionOfIf => "[Semantic] Condição do if deve ser booleana"
  | .conditionOfLoop => "[Semantic] Condição do until deve ser booleana"
  | .notFunction name => "[Semantic] " ++ name ++ " não é uma função ou não foi declarada"
  | .argumentCount name =>
    "[Semantic] Chamada a " ++ name ++ " com número incorreto de argumentos"
  | .argumentType name => "[Semantic] Tipo de argumento incompatível na chamada de " ++ name
  | .resultType name => "[Semantic] Tipo de retorno incompatível em " ++ name
  | .missingResult name expected =>
    "[Semantic] Função " ++ name ++ " espera retornar " ++ expected.name ++
      " mas não encontrou return"
  | .accessOfNonArray => "[Semantic] Tentativa de acessar não-array"
  | .indexNonNumber => "[Semantic] Índice de array deve ser number"
  | .indexOutOfRange => "[Semantic] Índice fora do intervalo"
  | .lengthOfNonArray => "[Semantic] 'len' só pode ser aplicado a arrays"

inductive ActionFault where
  | sayCount
  | waitCount
  | waitNonNumber
  | moveCount
  | moveNonNumber
  | attackCount
  | noEnemy
  | enemyNonNumber
  | targetNotName
  | targetNonNumber
  | firstNotName
  | attackNonNumbers
  | gatherCount
  | useCount
  | noHealth
  | healthNonNumber
  deriving DecidableEq, Repr

def ActionFault.message : ActionFault → String
  | .sayCount => "[Semantic] Ação 'say' requer exatamente 1 argumento"
  | .waitCount => "[Semantic] Ação 'wait' requer exatamente 1 argumento"
  | .waitNonNumber => "[Semantic] Ação 'wait' requer number"
  | .moveCount => "[Semantic] Ação 'move' requer exatamente 1 argumento"
  | .moveNonNumber => "[Semantic] Ação 'move' requer number"
  | .attackCount => "[Semantic] attack aceita 0, 1 ou 2 argumentos"
  | .noEnemy => "[Semantic] 'attack()' sem alvo requer variável global 'enemy_hp'"
  | .enemyNonNumber => "[Semantic] 'enemy_hp' deve ser number"
  | .targetNotName => "[Semantic] attack(target) requer Identifier como primeiro argumento"
  | .targetNonNumber => "[Semantic] target deve ser number"
  | .firstNotName => "[Semantic] Primeiro argumento de attack deve ser Identifier"
  | .attackNonNumbers => "[Semantic] attack(target,damage) requer números"
  | .gatherCount => "[Semantic] gather espera 1 argumento"
  | .useCount => "[Semantic] use espera 1 argumento"
  | .noHealth => "[Semantic] Variável 'health' não encontrada para usar potion"
  | .healthNonNumber => "[Semantic] 'health' deve ser number"

inductive Aspect where
  | type
  | value
  | parts
  deriving DecidableEq, Repr

def Aspect.word : Aspect → String
  | .type => "type"
  | .value => "value"
  | .parts => "children"

inductive WaitFault where
  | negative
  | tooLong
  deriving DecidableEq, Repr

def WaitFault.message : WaitFault → String
  | .negative => "sleep length must be non-negative"
  | .tooLong => "timestamp too large to convert to C _PyTime_t"

inductive Fault where
  | shape (cause : ShapeFault)
  | type (cause : TypeFault)
  | scope (cause : ScopeFault)
  | action (cause : ActionFault)
  | value (cause : ValueFault)
  | absent (kind : ValueKind) (aspect : Aspect)
  | numeral (cause : NumeralFault)
  | wait (cause : WaitFault)
  deriving DecidableEq, Repr

def Fault.message : Fault → String
  | .shape cause => cause.message
  | .type cause => cause.message
  | .scope cause => cause.message
  | .action cause => cause.message
  | .value cause => cause.message
  | .absent kind aspect => "'" ++ kind.word ++ "' object has no attribute '" ++ aspect.word ++ "'"
  | .numeral cause => cause.message
  | .wait cause => cause.message

end LevelScript

import LevelScript.Token.Basic

set_option autoImplicit false

namespace LevelScript.Checker

inductive Terminal where
  | identifier
  | number
  | text
  | keyword (word : Keyword)
  | symbol (mark : Symbol)
  | endOfInput
  deriving DecidableEq, Repr

inductive Nonterminal where
  | program
  | declaration
  | variableDeclaration
  | type
  | baseType
  | functionDeclaration
  | optionalResultType
  | parameters
  | parameterList
  | parameter
  | entityDeclaration
  | members
  | member
  | commands
  | command
  | assignment
  | conditional
  | optionalElse
  | loop
  | result
  | optionalExpression
  | block
  | action
  | expression
  | logical
  | relation
  | sum
  | term
  | factor
  | access
  | lengthCall
  | literal
  | arrayLiteral
  | optionalList
  | list
  | boolean
  deriving DecidableEq, Repr

inductive GrammarSymbol where
  | terminal (t : Terminal)
  | nonterminal (n : Nonterminal)
  deriving DecidableEq, Repr

inductive Production where
  | programEmpty
  | programDeclaration
  | programCommand
  | declarationVariable
  | declarationFunction
  | declarationEntity
  | variableDeclaration
  | typeBase
  | typeArray
  | baseText
  | baseNumber
  | baseBoolean
  | baseArray
  | functionDeclaration
  | resultTypeNone
  | resultTypeGiven
  | parametersNone
  | parametersGiven
  | parameterFirst
  | parameterNext
  | parameter
  | entityDeclaration
  | membersNone
  | membersNext
  | memberVariable
  | memberFunction
  | commandsNone
  | commandsNext
  | commandAssignment
  | commandConditional
  | commandLoop
  | commandAction
  | commandResult
  | commandBlock
  | assignment
  | elementAssignment
  | conditional
  | elseNone
  | elseGiven
  | loopUntil
  | loopDuring
  | result
  | expressionNone
  | expressionGiven
  | block
  | actionMove
  | actionAttack
  | actionGather
  | actionUse
  | actionSay
  | actionWait
  | expression
  | logicalFirst
  | logicalAnd
  | logicalOr
  | relationFirst
  | relationEqual
  | relationNotEqual
  | relationLess
  | relationGreater
  | relationAtMost
  | relationAtLeast
  | sumFirst
  | sumPlus
  | sumMinus
  | termFirst
  | termTimes
  | termDivide
  | factorLiteral
  | factorName
  | factorAccess
  | factorGroup
  | factorLength
  | access
  | lengthCall
  | literalNumber
  | literalBoolean
  | literalText
  | literalArray
  | arrayLiteral
  | listNone
  | listGiven
  | listFirst
  | listNext
  | booleanTrue
  | booleanFalse
  deriving DecidableEq, Repr

namespace Production

def all : List Production :=
  [programEmpty, programDeclaration, programCommand, declarationVariable, declarationFunction,
   declarationEntity, variableDeclaration, typeBase, typeArray, baseText, baseNumber, baseBoolean,
   baseArray, functionDeclaration, resultTypeNone, resultTypeGiven, parametersNone, parametersGiven,
   parameterFirst, parameterNext, parameter, entityDeclaration, membersNone, membersNext,
   memberVariable, memberFunction, commandsNone, commandsNext, commandAssignment,
   commandConditional, commandLoop, commandAction, commandResult, commandBlock, assignment,
   elementAssignment, conditional, elseNone, elseGiven, loopUntil, loopDuring, result,
   expressionNone, expressionGiven, block, actionMove, actionAttack, actionGather, actionUse,
   actionSay, actionWait, expression, logicalFirst, logicalAnd, logicalOr, relationFirst,
   relationEqual, relationNotEqual, relationLess, relationGreater, relationAtMost, relationAtLeast,
   sumFirst, sumPlus, sumMinus, termFirst, termTimes, termDivide, factorLiteral, factorName,
   factorAccess, factorGroup, factorLength, access, lengthCall, literalNumber, literalBoolean,
   literalText, literalArray, arrayLiteral, listNone, listGiven, listFirst, listNext, booleanTrue,
   booleanFalse]

def head : Production → Nonterminal
  | .programEmpty => .program
  | .programDeclaration => .program
  | .programCommand => .program
  | .declarationVariable => .declaration
  | .declarationFunction => .declaration
  | .declarationEntity => .declaration
  | .variableDeclaration => .variableDeclaration
  | .typeBase => .type
  | .typeArray => .type
  | .baseText => .baseType
  | .baseNumber => .baseType
  | .baseBoolean => .baseType
  | .baseArray => .baseType
  | .functionDeclaration => .functionDeclaration
  | .resultTypeNone => .optionalResultType
  | .resultTypeGiven => .optionalResultType
  | .parametersNone => .parameters
  | .parametersGiven => .parameters
  | .parameterFirst => .parameterList
  | .parameterNext => .parameterList
  | .parameter => .parameter
  | .entityDeclaration => .entityDeclaration
  | .membersNone => .members
  | .membersNext => .members
  | .memberVariable => .member
  | .memberFunction => .member
  | .commandsNone => .commands
  | .commandsNext => .commands
  | .commandAssignment => .command
  | .commandConditional => .command
  | .commandLoop => .command
  | .commandAction => .command
  | .commandResult => .command
  | .commandBlock => .command
  | .assignment => .assignment
  | .elementAssignment => .assignment
  | .conditional => .conditional
  | .elseNone => .optionalElse
  | .elseGiven => .optionalElse
  | .loopUntil => .loop
  | .loopDuring => .loop
  | .result => .result
  | .expressionNone => .optionalExpression
  | .expressionGiven => .optionalExpression
  | .block => .block
  | .actionMove => .action
  | .actionAttack => .action
  | .actionGather => .action
  | .actionUse => .action
  | .actionSay => .action
  | .actionWait => .action
  | .expression => .expression
  | .logicalFirst => .logical
  | .logicalAnd => .logical
  | .logicalOr => .logical
  | .relationFirst => .relation
  | .relationEqual => .relation
  | .relationNotEqual => .relation
  | .relationLess => .relation
  | .relationGreater => .relation
  | .relationAtMost => .relation
  | .relationAtLeast => .relation
  | .sumFirst => .sum
  | .sumPlus => .sum
  | .sumMinus => .sum
  | .termFirst => .term
  | .termTimes => .term
  | .termDivide => .term
  | .factorLiteral => .factor
  | .factorName => .factor
  | .factorAccess => .factor
  | .factorGroup => .factor
  | .factorLength => .factor
  | .access => .access
  | .lengthCall => .lengthCall
  | .literalNumber => .literal
  | .literalBoolean => .literal
  | .literalText => .literal
  | .literalArray => .literal
  | .arrayLiteral => .arrayLiteral
  | .listNone => .optionalList
  | .listGiven => .optionalList
  | .listFirst => .list
  | .listNext => .list
  | .booleanTrue => .boolean
  | .booleanFalse => .boolean

def body : Production → List GrammarSymbol
  | .programEmpty => []
  | .programDeclaration => [.nonterminal .program, .nonterminal .declaration]
  | .programCommand => [.nonterminal .program, .nonterminal .command]
  | .declarationVariable => [.nonterminal .variableDeclaration]
  | .declarationFunction => [.nonterminal .functionDeclaration]
  | .declarationEntity => [.nonterminal .entityDeclaration]
  | .variableDeclaration =>
      [.terminal .identifier, .terminal (.symbol .colon), .nonterminal .type,
       .terminal (.symbol .assign), .nonterminal .expression, .terminal (.symbol .semicolon)]
  | .typeBase => [.nonterminal .baseType]
  | .typeArray =>
      [.nonterminal .type, .terminal (.symbol .leftBracket), .terminal (.symbol .rightBracket)]
  | .baseText => [.terminal (.keyword .text)]
  | .baseNumber => [.terminal (.keyword .number)]
  | .baseBoolean => [.terminal (.keyword .boolean)]
  | .baseArray => [.terminal (.keyword .array)]
  | .functionDeclaration =>
      [.terminal (.keyword .func), .terminal .identifier, .terminal (.symbol .leftParen),
       .nonterminal .parameters, .terminal (.symbol .rightParen), .nonterminal .optionalResultType,
       .terminal (.symbol .leftBrace), .nonterminal .commands, .terminal (.symbol .rightBrace)]
  | .resultTypeNone => []
  | .resultTypeGiven => [.terminal (.symbol .colon), .nonterminal .type]
  | .parametersNone => []
  | .parametersGiven => [.nonterminal .parameterList]
  | .parameterFirst => [.nonterminal .parameter]
  | .parameterNext =>
      [.nonterminal .parameterList, .terminal (.symbol .comma), .nonterminal .parameter]
  | .parameter => [.terminal .identifier, .terminal (.symbol .colon), .nonterminal .type]
  | .entityDeclaration =>
      [.terminal (.keyword .entity), .terminal .identifier, .terminal (.symbol .leftBrace),
       .nonterminal .members, .terminal (.symbol .rightBrace)]
  | .membersNone => []
  | .membersNext => [.nonterminal .members, .nonterminal .member]
  | .memberVariable => [.nonterminal .variableDeclaration]
  | .memberFunction => [.nonterminal .functionDeclaration]
  | .commandsNone => []
  | .commandsNext => [.nonterminal .commands, .nonterminal .command]
  | .commandAssignment => [.nonterminal .assignment]
  | .commandConditional => [.nonterminal .conditional]
  | .commandLoop => [.nonterminal .loop]
  | .commandAction => [.nonterminal .action]
  | .commandResult => [.nonterminal .result]
  | .commandBlock => [.nonterminal .block]
  | .assignment =>
      [.terminal .identifier, .terminal (.symbol .assign), .nonterminal .expression,
       .terminal (.symbol .semicolon)]
  | .elementAssignment =>
      [.terminal .identifier, .terminal (.symbol .leftBracket), .nonterminal .expression,
       .terminal (.symbol .rightBracket), .terminal (.symbol .assign), .nonterminal .expression,
       .terminal (.symbol .semicolon)]
  | .conditional =>
      [.terminal (.keyword .ifWord), .terminal (.symbol .leftParen), .nonterminal .expression,
       .terminal (.symbol .rightParen), .nonterminal .block, .nonterminal .optionalElse]
  | .elseNone => []
  | .elseGiven => [.terminal (.keyword .elseWord), .nonterminal .block]
  | .loopUntil =>
      [.terminal (.keyword .untilWord), .terminal (.symbol .leftParen), .nonterminal .expression,
       .terminal (.symbol .rightParen), .nonterminal .block]
  | .loopDuring =>
      [.terminal (.keyword .during), .terminal (.symbol .leftParen),
       .nonterminal .variableDeclaration, .nonterminal .expression, .terminal (.symbol .semicolon),
       .nonterminal .assignment, .terminal (.symbol .rightParen), .nonterminal .block]
  | .result =>
      [.terminal (.keyword .returnWord), .nonterminal .optionalExpression,
       .terminal (.symbol .semicolon)]
  | .expressionNone => []
  | .expressionGiven => [.nonterminal .expression]
  | .block =>
      [.terminal (.symbol .leftBrace), .nonterminal .commands, .terminal (.symbol .rightBrace)]
  | .actionMove =>
      [.terminal (.keyword .move), .terminal (.symbol .leftParen), .nonterminal .expression,
       .terminal (.symbol .rightParen), .terminal (.symbol .semicolon)]
  | .actionAttack =>
      [.terminal (.keyword .attack), .terminal (.symbol .leftParen),
       .nonterminal .optionalExpression, .terminal (.symbol .rightParen),
       .terminal (.symbol .semicolon)]
  | .actionGather =>
      [.terminal (.keyword .gather), .terminal (.symbol .leftParen), .terminal .identifier,
       .terminal (.symbol .rightParen), .terminal (.symbol .semicolon)]
  | .actionUse =>
      [.terminal (.keyword .use), .terminal (.symbol .leftParen), .terminal .identifier,
       .terminal (.symbol .rightParen), .terminal (.symbol .semicolon)]
  | .actionSay =>
      [.terminal (.keyword .say), .terminal (.symbol .leftParen), .terminal .text,
       .terminal (.symbol .rightParen), .terminal (.symbol .semicolon)]
  | .actionWait =>
      [.terminal (.keyword .wait), .terminal (.symbol .leftParen), .terminal .number,
       .terminal (.symbol .rightParen), .terminal (.symbol .semicolon)]
  | .expression => [.nonterminal .logical]
  | .logicalFirst => [.nonterminal .relation]
  | .logicalAnd => [.nonterminal .logical, .terminal (.symbol .and), .nonterminal .relation]
  | .logicalOr => [.nonterminal .logical, .terminal (.symbol .or), .nonterminal .relation]
  | .relationFirst => [.nonterminal .sum]
  | .relationEqual => [.nonterminal .relation, .terminal (.symbol .equal), .nonterminal .sum]
  | .relationNotEqual => [.nonterminal .relation, .terminal (.symbol .notEqual), .nonterminal .sum]
  | .relationLess => [.nonterminal .relation, .terminal (.symbol .less), .nonterminal .sum]
  | .relationGreater => [.nonterminal .relation, .terminal (.symbol .greater), .nonterminal .sum]
  | .relationAtMost => [.nonterminal .relation, .terminal (.symbol .atMost), .nonterminal .sum]
  | .relationAtLeast => [.nonterminal .relation, .terminal (.symbol .atLeast), .nonterminal .sum]
  | .sumFirst => [.nonterminal .term]
  | .sumPlus => [.nonterminal .sum, .terminal (.symbol .plus), .nonterminal .term]
  | .sumMinus => [.nonterminal .sum, .terminal (.symbol .minus), .nonterminal .term]
  | .termFirst => [.nonterminal .factor]
  | .termTimes => [.nonterminal .term, .terminal (.symbol .times), .nonterminal .factor]
  | .termDivide => [.nonterminal .term, .terminal (.symbol .divide), .nonterminal .factor]
  | .factorLiteral => [.nonterminal .literal]
  | .factorName => [.terminal .identifier]
  | .factorAccess => [.nonterminal .access]
  | .factorGroup =>
      [.terminal (.symbol .leftParen), .nonterminal .expression, .terminal (.symbol .rightParen)]
  | .factorLength => [.nonterminal .lengthCall]
  | .access =>
      [.terminal .identifier, .terminal (.symbol .leftBracket), .nonterminal .expression,
       .terminal (.symbol .rightBracket)]
  | .lengthCall =>
      [.terminal (.keyword .len), .terminal (.symbol .leftParen), .terminal .identifier,
       .terminal (.symbol .rightParen)]
  | .literalNumber => [.terminal .number]
  | .literalBoolean => [.nonterminal .boolean]
  | .literalText => [.terminal .text]
  | .literalArray => [.nonterminal .arrayLiteral]
  | .arrayLiteral =>
      [.terminal (.symbol .leftBracket), .nonterminal .optionalList,
       .terminal (.symbol .rightBracket)]
  | .listNone => []
  | .listGiven => [.nonterminal .list]
  | .listFirst => [.nonterminal .expression]
  | .listNext => [.nonterminal .list, .terminal (.symbol .comma), .nonterminal .expression]
  | .booleanTrue => [.terminal (.keyword .trueWord)]
  | .booleanFalse => [.terminal (.keyword .falseWord)]

end Production

end LevelScript.Checker

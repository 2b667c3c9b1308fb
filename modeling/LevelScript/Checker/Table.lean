import LevelScript.Checker.Grammar

set_option autoImplicit false

namespace LevelScript.Checker

/-- The row of a state: the symbol that leads to it, the states after the terminals that can be
shifted, the production that is reduced where none of these stands next, and the states after the
nonterminals that a reduction can leave. -/
structure TableRow where
  symbol : Option GrammarSymbol
  shifts : List (Terminal × Nat)
  reduction : Option Production
  gotos : List (Nonterminal × Nat)
  deriving Repr

namespace Table

def operandShifts : List (Terminal × Nat) :=
  [(.identifier, 36), (.number, 37), (.text, 38), (.keyword .trueWord, 39),
   (.keyword .falseWord, 40), (.keyword .len, 41), (.symbol .leftParen, 42),
   (.symbol .leftBracket, 43)]

def productShifts : List (Terminal × Nat) :=
  [(.symbol .times, 94), (.symbol .divide, 95)]

def sumShifts : List (Terminal × Nat) :=
  [(.symbol .plus, 92), (.symbol .minus, 93)]

def relationShifts : List (Terminal × Nat) :=
  [(.symbol .equal, 86), (.symbol .notEqual, 87), (.symbol .less, 88), (.symbol .greater, 89),
   (.symbol .atMost, 90), (.symbol .atLeast, 91)]

def typeShifts : List (Terminal × Nat) :=
  [(.keyword .text, 65), (.keyword .number, 66), (.keyword .boolean, 67), (.keyword .array, 68)]

def blockShifts : List (Terminal × Nat) :=
  [(.symbol .leftBrace, 16)]

def literalGotos : List (Nonterminal × Nat) :=
  [(.access, 51), (.lengthCall, 52), (.literal, 53), (.arrayLiteral, 54), (.boolean, 55)]

/-- The states after an expression, which goes to `target`, and after its parts. -/
def expressionGotos (target : Nat) : List (Nonterminal × Nat) :=
  (.expression, target) :: (.logical, 46) :: (.relation, 47) :: (.sum, 48) :: (.term, 49) ::
    (.factor, 50) :: literalGotos

def commandGotos : List (Nonterminal × Nat) :=
  [(.command, 104), (.assignment, 22), (.conditional, 23), (.loop, 24), (.result, 25), (.block, 26),
   (.action, 27)]

def rowsFrom0 : List TableRow :=
  [⟨none, [], some .programEmpty, [(.program, 1)]⟩,
   ⟨some (.nonterminal .program),
     [(.endOfInput, 2), (.identifier, 3), (.keyword .func, 4), (.keyword .entity, 5),
      (.keyword .ifWord, 6), (.keyword .untilWord, 7), (.keyword .during, 8),
      (.keyword .returnWord, 9), (.keyword .move, 10), (.keyword .attack, 11),
      (.keyword .gather, 12), (.keyword .use, 13), (.keyword .say, 14), (.keyword .wait, 15),
      (.symbol .leftBrace, 16)],
     none,
     [(.declaration, 17), (.variableDeclaration, 18), (.functionDeclaration, 19),
      (.entityDeclaration, 20), (.command, 21), (.assignment, 22), (.conditional, 23), (.loop, 24),
      (.result, 25), (.block, 26), (.action, 27)]⟩,
   ⟨some (.terminal .endOfInput), [], none, []⟩,
   ⟨some (.terminal .identifier),
     [(.symbol .assign, 28), (.symbol .leftBracket, 29), (.symbol .colon, 30)],
     none,
     []⟩,
   ⟨some (.terminal (.keyword .func)), [(.identifier, 31)], none, []⟩,
   ⟨some (.terminal (.keyword .entity)), [(.identifier, 32)], none, []⟩,
   ⟨some (.terminal (.keyword .ifWord)), [(.symbol .leftParen, 33)], none, []⟩,
   ⟨some (.terminal (.keyword .untilWord)), [(.symbol .leftParen, 34)], none, []⟩,
   ⟨some (.terminal (.keyword .during)), [(.symbol .leftParen, 35)], none, []⟩,
   ⟨some (.terminal (.keyword .returnWord)),
     operandShifts,
     some .expressionNone,
     (.optionalExpression, 44) :: expressionGotos 45⟩,
   ⟨some (.terminal (.keyword .move)), [(.symbol .leftParen, 56)], none, []⟩,
   ⟨some (.terminal (.keyword .attack)), [(.symbol .leftParen, 57)], none, []⟩,
   ⟨some (.terminal (.keyword .gather)), [(.symbol .leftParen, 58)], none, []⟩,
   ⟨some (.terminal (.keyword .use)), [(.symbol .leftParen, 59)], none, []⟩,
   ⟨some (.terminal (.keyword .say)), [(.symbol .leftParen, 60)], none, []⟩,
   ⟨some (.terminal (.keyword .wait)), [(.symbol .leftParen, 61)], none, []⟩,
   ⟨some (.terminal (.symbol .leftBrace)), [], some .commandsNone, [(.commands, 62)]⟩,
   ⟨some (.nonterminal .declaration), [], some .programDeclaration, []⟩,
   ⟨some (.nonterminal .variableDeclaration), [], some .declarationVariable, []⟩,
   ⟨some (.nonterminal .functionDeclaration), [], some .declarationFunction, []⟩,
   ⟨some (.nonterminal .entityDeclaration), [], some .declarationEntity, []⟩,
   ⟨some (.nonterminal .command), [], some .programCommand, []⟩,
   ⟨some (.nonterminal .assignment), [], some .commandAssignment, []⟩,
   ⟨some (.nonterminal .conditional), [], some .commandConditional, []⟩,
   ⟨some (.nonterminal .loop), [], some .commandLoop, []⟩,
   ⟨some (.nonterminal .result), [], some .commandResult, []⟩,
   ⟨some (.nonterminal .block), [], some .commandBlock, []⟩,
   ⟨some (.nonterminal .action), [], some .commandAction, []⟩,
   ⟨some (.terminal (.symbol .assign)), operandShifts, none, expressionGotos 63⟩,
   ⟨some (.terminal (.symbol .leftBracket)), operandShifts, none, expressionGotos 64⟩,
   ⟨some (.terminal (.symbol .colon)), typeShifts, none, [(.type, 69), (.baseType, 70)]⟩,
   ⟨some (.terminal .identifier), [(.symbol .leftParen, 71)], none, []⟩,
   ⟨some (.terminal .identifier), [(.symbol .leftBrace, 72)], none, []⟩,
   ⟨some (.terminal (.symbol .leftParen)), operandShifts, none, expressionGotos 73⟩,
   ⟨some (.terminal (.symbol .leftParen)), operandShifts, none, expressionGotos 74⟩,
   ⟨some (.terminal (.symbol .leftParen)),
     [(.identifier, 75)],
     none,
     [(.variableDeclaration, 76)]⟩,
   ⟨some (.terminal .identifier), [(.symbol .leftBracket, 77)], some .factorName, []⟩,
   ⟨some (.terminal .number), [], some .literalNumber, []⟩,
   ⟨some (.terminal .text), [], some .literalText, []⟩,
   ⟨some (.terminal (.keyword .trueWord)), [], some .booleanTrue, []⟩,
   ⟨some (.terminal (.keyword .falseWord)), [], some .booleanFalse, []⟩,
   ⟨some (.terminal (.keyword .len)), [(.symbol .leftParen, 78)], none, []⟩,
   ⟨some (.terminal (.symbol .leftParen)), operandShifts, none, expressionGotos 79⟩,
   ⟨some (.terminal (.symbol .leftBracket)),
     operandShifts,
     some .listNone,
     (.optionalList, 81) :: (.list, 82) :: expressionGotos 80⟩,
   ⟨some (.nonterminal .optionalExpression), [(.symbol .semicolon, 83)], none, []⟩,
   ⟨some (.nonterminal .expression), [], some .expressionGiven, []⟩,
   ⟨some (.nonterminal .logical),
     [(.symbol .and, 84), (.symbol .or, 85)],
     some .expression,
     []⟩,
   ⟨some (.nonterminal .relation), relationShifts, some .logicalFirst, []⟩,
   ⟨some (.nonterminal .sum), sumShifts, some .relationFirst, []⟩,
   ⟨some (.nonterminal .term), productShifts, some .sumFirst, []⟩,
   ⟨some (.nonterminal .factor), [], some .termFirst, []⟩,
   ⟨some (.nonterminal .access), [], some .factorAccess, []⟩,
   ⟨some (.nonterminal .lengthCall), [], some .factorLength, []⟩,
   ⟨some (.nonterminal .literal), [], some .factorLiteral, []⟩,
   ⟨some (.nonterminal .arrayLiteral), [], some .literalArray, []⟩,
   ⟨some (.nonterminal .boolean), [], some .literalBoolean, []⟩,
   ⟨some (.terminal (.symbol .leftParen)), operandShifts, none, expressionGotos 96⟩,
   ⟨some (.terminal (.symbol .leftParen)),
     operandShifts,
     some .expressionNone,
     (.optionalExpression, 97) :: expressionGotos 45⟩,
   ⟨some (.terminal (.symbol .leftParen)), [(.identifier, 98)], none, []⟩,
   ⟨some (.terminal (.symbol .leftParen)), [(.identifier, 99)], none, []⟩]

def rowsFrom60 : List TableRow :=
  [⟨some (.terminal (.symbol .leftParen)), [(.text, 100)], none, []⟩,
   ⟨some (.terminal (.symbol .leftParen)), [(.number, 101)], none, []⟩,
   ⟨some (.nonterminal .commands),
     [(.identifier, 102), (.keyword .ifWord, 6), (.keyword .untilWord, 7), (.keyword .during, 8),
      (.keyword .returnWord, 9), (.keyword .move, 10), (.keyword .attack, 11),
      (.keyword .gather, 12), (.keyword .use, 13), (.keyword .say, 14), (.keyword .wait, 15),
      (.symbol .leftBrace, 16), (.symbol .rightBrace, 103)],
     none,
     commandGotos⟩,
   ⟨some (.nonterminal .expression), [(.symbol .semicolon, 105)], none, []⟩,
   ⟨some (.nonterminal .expression), [(.symbol .rightBracket, 106)], none, []⟩,
   ⟨some (.terminal (.keyword .text)), [], some .baseText, []⟩,
   ⟨some (.terminal (.keyword .number)), [], some .baseNumber, []⟩,
   ⟨some (.terminal (.keyword .boolean)), [], some .baseBoolean, []⟩,
   ⟨some (.terminal (.keyword .array)), [], some .baseArray, []⟩,
   ⟨some (.nonterminal .type),
     [(.symbol .assign, 107), (.symbol .leftBracket, 108)],
     none,
     []⟩,
   ⟨some (.nonterminal .baseType), [], some .typeBase, []⟩,
   ⟨some (.terminal (.symbol .leftParen)),
     [(.identifier, 109)],
     some .parametersNone,
     [(.parameters, 110), (.parameterList, 111), (.parameter, 112)]⟩,
   ⟨some (.terminal (.symbol .leftBrace)), [], some .membersNone, [(.members, 113)]⟩,
   ⟨some (.nonterminal .expression), [(.symbol .rightParen, 114)], none, []⟩,
   ⟨some (.nonterminal .expression), [(.symbol .rightParen, 115)], none, []⟩,
   ⟨some (.terminal .identifier), [(.symbol .colon, 30)], none, []⟩,
   ⟨some (.nonterminal .variableDeclaration), operandShifts, none, expressionGotos 116⟩,
   ⟨some (.terminal (.symbol .leftBracket)), operandShifts, none, expressionGotos 117⟩,
   ⟨some (.terminal (.symbol .leftParen)), [(.identifier, 118)], none, []⟩,
   ⟨some (.nonterminal .expression), [(.symbol .rightParen, 119)], none, []⟩,
   ⟨some (.nonterminal .expression), [], some .listFirst, []⟩,
   ⟨some (.nonterminal .optionalList), [(.symbol .rightBracket, 120)], none, []⟩,
   ⟨some (.nonterminal .list), [(.symbol .comma, 121)], some .listGiven, []⟩,
   ⟨some (.terminal (.symbol .semicolon)), [], some .result, []⟩,
   ⟨some (.terminal (.symbol .and)),
     operandShifts,
     none,
     (.relation, 122) :: (.sum, 48) :: (.term, 49) :: (.factor, 50) :: literalGotos⟩,
   ⟨some (.terminal (.symbol .or)),
     operandShifts,
     none,
     (.relation, 123) :: (.sum, 48) :: (.term, 49) :: (.factor, 50) :: literalGotos⟩,
   ⟨some (.terminal (.symbol .equal)),
     operandShifts,
     none,
     (.sum, 124) :: (.term, 49) :: (.factor, 50) :: literalGotos⟩,
   ⟨some (.terminal (.symbol .notEqual)),
     operandShifts,
     none,
     (.sum, 125) :: (.term, 49) :: (.factor, 50) :: literalGotos⟩,
   ⟨some (.terminal (.symbol .less)),
     operandShifts,
     none,
     (.sum, 126) :: (.term, 49) :: (.factor, 50) :: literalGotos⟩,
   ⟨some (.terminal (.symbol .greater)),
     operandShifts,
     none,
     (.sum, 127) :: (.term, 49) :: (.factor, 50) :: literalGotos⟩,
   ⟨some (.terminal (.symbol .atMost)),
     operandShifts,
     none,
     (.sum, 128) :: (.term, 49) :: (.factor, 50) :: literalGotos⟩,
   ⟨some (.terminal (.symbol .atLeast)),
     operandShifts,
     none,
     (.sum, 129) :: (.term, 49) :: (.factor, 50) :: literalGotos⟩,
   ⟨some (.terminal (.symbol .plus)),
     operandShifts,
     none,
     (.term, 130) :: (.factor, 50) :: literalGotos⟩,
   ⟨some (.terminal (.symbol .minus)),
     operandShifts,
     none,
     (.term, 131) :: (.factor, 50) :: literalGotos⟩,
   ⟨some (.terminal (.symbol .times)), operandShifts, none, (.factor, 132) :: literalGotos⟩,
   ⟨some (.terminal (.symbol .divide)), operandShifts, none, (.factor, 133) :: literalGotos⟩,
   ⟨some (.nonterminal .expression), [(.symbol .rightParen, 134)], none, []⟩,
   ⟨some (.nonterminal .optionalExpression), [(.symbol .rightParen, 135)], none, []⟩,
   ⟨some (.terminal .identifier), [(.symbol .rightParen, 136)], none, []⟩,
   ⟨some (.terminal .identifier), [(.symbol .rightParen, 137)], none, []⟩,
   ⟨some (.terminal .text), [(.symbol .rightParen, 138)], none, []⟩,
   ⟨some (.terminal .number), [(.symbol .rightParen, 139)], none, []⟩,
   ⟨some (.terminal .identifier),
     [(.symbol .assign, 28), (.symbol .leftBracket, 29)],
     none,
     []⟩,
   ⟨some (.terminal (.symbol .rightBrace)), [], some .block, []⟩,
   ⟨some (.nonterminal .command), [], some .commandsNext, []⟩,
   ⟨some (.terminal (.symbol .semicolon)), [], some .assignment, []⟩,
   ⟨some (.terminal (.symbol .rightBracket)), [(.symbol .assign, 140)], none, []⟩,
   ⟨some (.terminal (.symbol .assign)), operandShifts, none, expressionGotos 141⟩,
   ⟨some (.terminal (.symbol .leftBracket)), [(.symbol .rightBracket, 142)], none, []⟩,
   ⟨some (.terminal .identifier), [(.symbol .colon, 143)], none, []⟩,
   ⟨some (.nonterminal .parameters), [(.symbol .rightParen, 144)], none, []⟩,
   ⟨some (.nonterminal .parameterList), [(.symbol .comma, 145)], some .parametersGiven, []⟩,
   ⟨some (.nonterminal .parameter), [], some .parameterFirst, []⟩,
   ⟨some (.nonterminal .members),
     [(.identifier, 75), (.keyword .func, 4), (.symbol .rightBrace, 146)],
     none,
     [(.variableDeclaration, 147), (.functionDeclaration, 148), (.member, 149)]⟩,
   ⟨some (.terminal (.symbol .rightParen)), blockShifts, none, [(.block, 150)]⟩,
   ⟨some (.terminal (.symbol .rightParen)), blockShifts, none, [(.block, 151)]⟩,
   ⟨some (.nonterminal .expression), [(.symbol .semicolon, 152)], none, []⟩,
   ⟨some (.nonterminal .expression), [(.symbol .rightBracket, 153)], none, []⟩,
   ⟨some (.terminal .identifier), [(.symbol .rightParen, 154)], none, []⟩,
   ⟨some (.terminal (.symbol .rightParen)), [], some .factorGroup, []⟩]

def rowsFrom120 : List TableRow :=
  [⟨some (.terminal (.symbol .rightBracket)), [], some .arrayLiteral, []⟩,
   ⟨some (.terminal (.symbol .comma)), operandShifts, none, expressionGotos 155⟩,
   ⟨some (.nonterminal .relation), relationShifts, some .logicalAnd, []⟩,
   ⟨some (.nonterminal .relation), relationShifts, some .logicalOr, []⟩,
   ⟨some (.nonterminal .sum), sumShifts, some .relationEqual, []⟩,
   ⟨some (.nonterminal .sum), sumShifts, some .relationNotEqual, []⟩,
   ⟨some (.nonterminal .sum), sumShifts, some .relationLess, []⟩,
   ⟨some (.nonterminal .sum), sumShifts, some .relationGreater, []⟩,
   ⟨some (.nonterminal .sum), sumShifts, some .relationAtMost, []⟩,
   ⟨some (.nonterminal .sum), sumShifts, some .relationAtLeast, []⟩,
   ⟨some (.nonterminal .term), productShifts, some .sumPlus, []⟩,
   ⟨some (.nonterminal .term), productShifts, some .sumMinus, []⟩,
   ⟨some (.nonterminal .factor), [], some .termTimes, []⟩,
   ⟨some (.nonterminal .factor), [], some .termDivide, []⟩,
   ⟨some (.terminal (.symbol .rightParen)), [(.symbol .semicolon, 156)], none, []⟩,
   ⟨some (.terminal (.symbol .rightParen)), [(.symbol .semicolon, 157)], none, []⟩,
   ⟨some (.terminal (.symbol .rightParen)), [(.symbol .semicolon, 158)], none, []⟩,
   ⟨some (.terminal (.symbol .rightParen)), [(.symbol .semicolon, 159)], none, []⟩,
   ⟨some (.terminal (.symbol .rightParen)), [(.symbol .semicolon, 160)], none, []⟩,
   ⟨some (.terminal (.symbol .rightParen)), [(.symbol .semicolon, 161)], none, []⟩,
   ⟨some (.terminal (.symbol .assign)), operandShifts, none, expressionGotos 162⟩,
   ⟨some (.nonterminal .expression), [(.symbol .semicolon, 163)], none, []⟩,
   ⟨some (.terminal (.symbol .rightBracket)), [], some .typeArray, []⟩,
   ⟨some (.terminal (.symbol .colon)), typeShifts, none, [(.type, 164), (.baseType, 70)]⟩,
   ⟨some (.terminal (.symbol .rightParen)),
     [(.symbol .colon, 165)],
     some .resultTypeNone,
     [(.optionalResultType, 166)]⟩,
   ⟨some (.terminal (.symbol .comma)), [(.identifier, 109)], none, [(.parameter, 167)]⟩,
   ⟨some (.terminal (.symbol .rightBrace)), [], some .entityDeclaration, []⟩,
   ⟨some (.nonterminal .variableDeclaration), [], some .memberVariable, []⟩,
   ⟨some (.nonterminal .functionDeclaration), [], some .memberFunction, []⟩,
   ⟨some (.nonterminal .member), [], some .membersNext, []⟩,
   ⟨some (.nonterminal .block),
     [(.keyword .elseWord, 168)],
     some .elseNone,
     [(.optionalElse, 169)]⟩,
   ⟨some (.nonterminal .block), [], some .loopUntil, []⟩,
   ⟨some (.terminal (.symbol .semicolon)), [(.identifier, 102)], none, [(.assignment, 170)]⟩,
   ⟨some (.terminal (.symbol .rightBracket)), [], some .access, []⟩,
   ⟨some (.terminal (.symbol .rightParen)), [], some .lengthCall, []⟩,
   ⟨some (.nonterminal .expression), [], some .listNext, []⟩,
   ⟨some (.terminal (.symbol .semicolon)), [], some .actionMove, []⟩,
   ⟨some (.terminal (.symbol .semicolon)), [], some .actionAttack, []⟩,
   ⟨some (.terminal (.symbol .semicolon)), [], some .actionGather, []⟩,
   ⟨some (.terminal (.symbol .semicolon)), [], some .actionUse, []⟩,
   ⟨some (.terminal (.symbol .semicolon)), [], some .actionSay, []⟩,
   ⟨some (.terminal (.symbol .semicolon)), [], some .actionWait, []⟩,
   ⟨some (.nonterminal .expression), [(.symbol .semicolon, 171)], none, []⟩,
   ⟨some (.terminal (.symbol .semicolon)), [], some .variableDeclaration, []⟩,
   ⟨some (.nonterminal .type), [(.symbol .leftBracket, 108)], some .parameter, []⟩,
   ⟨some (.terminal (.symbol .colon)), typeShifts, none, [(.type, 172), (.baseType, 70)]⟩,
   ⟨some (.nonterminal .optionalResultType), [(.symbol .leftBrace, 173)], none, []⟩,
   ⟨some (.nonterminal .parameter), [], some .parameterNext, []⟩,
   ⟨some (.terminal (.keyword .elseWord)), blockShifts, none, [(.block, 174)]⟩,
   ⟨some (.nonterminal .optionalElse), [], some .conditional, []⟩,
   ⟨some (.nonterminal .assignment), [(.symbol .rightParen, 175)], none, []⟩,
   ⟨some (.terminal (.symbol .semicolon)), [], some .elementAssignment, []⟩,
   ⟨some (.nonterminal .type), [(.symbol .leftBracket, 108)], some .resultTypeGiven, []⟩,
   ⟨some (.terminal (.symbol .leftBrace)), [], some .commandsNone, [(.commands, 176)]⟩,
   ⟨some (.nonterminal .block), [], some .elseGiven, []⟩,
   ⟨some (.terminal (.symbol .rightParen)), blockShifts, none, [(.block, 177)]⟩,
   ⟨some (.nonterminal .commands),
     [(.identifier, 102), (.keyword .ifWord, 6), (.keyword .untilWord, 7), (.keyword .during, 8),
      (.keyword .returnWord, 9), (.keyword .move, 10), (.keyword .attack, 11),
      (.keyword .gather, 12), (.keyword .use, 13), (.keyword .say, 14), (.keyword .wait, 15),
      (.symbol .leftBrace, 16), (.symbol .rightBrace, 178)],
     none,
     commandGotos⟩,
   ⟨some (.nonterminal .block), [], some .loopDuring, []⟩,
   ⟨some (.terminal (.symbol .rightBrace)), [], some .functionDeclaration, []⟩]

def rows : Array TableRow :=
  (rowsFrom0 ++ rowsFrom60 ++ rowsFrom120).toArray

def row? (state : Nat) : Option TableRow :=
  rows[state]?

def start : Nat := 0

def final : Nat := 2

end Table

namespace TableRow

def shift? (row : TableRow) (t : Terminal) : Option Nat :=
  row.shifts.lookup t

def goto? (row : TableRow) (n : Nonterminal) : Option Nat :=
  row.gotos.lookup n

end TableRow

end LevelScript.Checker

import LevelScript.Checker.Grammar
import LevelScript.Parser.Command

set_option autoImplicit false

namespace LevelScript

open Checker (Terminal)

def Token.terminal : Token → Terminal
  | .identifier _ => .identifier
  | .number _ => .number
  | .text _ => .text
  | .keyword word => .keyword word
  | .symbol mark => .symbol mark
  | .endOfInput => .endOfInput

inductive Level where
  | logical
  | relation
  | sum
  | term
  | factor
  deriving DecidableEq, Repr

namespace Level

def tighter : Level → Level
  | .logical => .relation
  | .relation => .sum
  | .sum => .term
  | .term => .factor
  | .factor => .factor

def operators : Level → List Symbol
  | .logical => [.and, .or]
  | .relation => [.equal, .notEqual, .less, .greater, .atMost, .atLeast]
  | .sum => [.plus, .minus]
  | .term => [.times, .divide]
  | .factor => []

end Level

def Keyword.types : List Keyword :=
  [.text, .number, .boolean, .array]

def Keyword.actions : List Keyword :=
  [.move, .attack, .gather, .use, .say, .wait]

inductive Item where
  | expression
  | parameter
  deriving DecidableEq, Repr

inductive Category where
  | program
  | variableDeclaration
  | functionDeclaration
  | parameter
  | entity
  | members
  | block
  | commands
  | command
  | level (level : Level)
  /-- One or more between commas. -/
  | items (item : Item)
  /-- None, or some between commas. -/
  | optionalItems (item : Item)
  deriving DecidableEq, Repr

namespace Category

abbrev expression : Category := .level .logical

abbrev factor : Category := .level .factor

end Category

def Item.category : Item → Category
  | .expression => .expression
  | .parameter => .parameter

inductive DerivesType : List Terminal → Prop where
  | none : DerivesType []
  | some {type : Keyword} :
      type ∈ Keyword.types → DerivesType [.symbol .colon, .keyword type]

/-- `Derives category kinds`: the rules turn the category into this sequence of kinds. -/
inductive Derives : Category → List Terminal → Prop where
  | programEnd : Derives .program []
  | programNext {category : Category} {u v : List Terminal} :
      category ∈ [.variableDeclaration, .functionDeclaration, .entity, .command] →
      Derives category u → Derives .program v → Derives .program (u ++ v)
  | variableDeclaration {type : Keyword} {e : List Terminal} :
      type ∈ Keyword.types → Derives .expression e →
      Derives .variableDeclaration (.identifier :: .symbol .colon :: .keyword type ::
        .symbol .assign :: (e ++ [.symbol .semicolon]))
  | functionDeclaration {p r b : List Terminal} :
      Derives (.optionalItems .parameter) p → DerivesType r → Derives .block b →
      Derives .functionDeclaration (.keyword .func :: .identifier :: .symbol .leftParen ::
        (p ++ .symbol .rightParen :: (r ++ b)))
  | parameter {type : Keyword} :
      type ∈ Keyword.types → Derives .parameter [.identifier, .symbol .colon, .keyword type]
  | entity {m : List Terminal} :
      Derives .members m →
      Derives .entity (.keyword .entity :: .identifier :: .symbol .leftBrace ::
        (m ++ [.symbol .rightBrace]))
  | membersEnd : Derives .members []
  | membersNext {category : Category} {u v : List Terminal} :
      category ∈ [.variableDeclaration, .functionDeclaration] →
      Derives category u → Derives .members v → Derives .members (u ++ v)
  | block {c : List Terminal} :
      Derives .commands c →
      Derives .block (.symbol .leftBrace :: (c ++ [.symbol .rightBrace]))
  | commandsEnd : Derives .commands []
  | commandsNext {u v : List Terminal} :
      Derives .command u → Derives .commands v → Derives .commands (u ++ v)
  | skip : Derives .command [.symbol .semicolon]
  | declared {u : List Terminal} : Derives .variableDeclaration u → Derives .command u
  | blocked {u : List Terminal} : Derives .block u → Derives .command u
  | conditional {e c : List Terminal} :
      Derives .expression e → Derives .command c →
      Derives .command (.keyword .ifWord :: .symbol .leftParen ::
        (e ++ .symbol .rightParen :: c))
  | conditionalElse {e c d : List Terminal} :
      Derives .expression e → Derives .command c → Derives .command d →
      Derives .command (.keyword .ifWord :: .symbol .leftParen ::
        (e ++ .symbol .rightParen :: (c ++ .keyword .elseWord :: d)))
  | loop {e c : List Terminal} :
      Derives .expression e → Derives .command c →
      Derives .command (.keyword .untilWord :: .symbol .leftParen ::
        (e ++ .symbol .rightParen :: c))
  | resultNone : Derives .command [.keyword .returnWord, .symbol .semicolon]
  | result {e : List Terminal} :
      Derives .expression e →
      Derives .command (.keyword .returnWord :: (e ++ [.symbol .semicolon]))
  | action {name : Keyword} {a : List Terminal} :
      name ∈ Keyword.actions → Derives (.optionalItems .expression) a →
      Derives .command (.keyword name :: .symbol .leftParen ::
        (a ++ [.symbol .rightParen, .symbol .semicolon]))
  | callCommand {a : List Terminal} :
      Derives (.optionalItems .expression) a →
      Derives .command (.identifier :: .symbol .leftParen ::
        (a ++ [.symbol .rightParen, .symbol .semicolon]))
  | bareCall : Derives .command [.identifier, .symbol .semicolon]
  | assignment {e : List Terminal} :
      Derives .expression e →
      Derives .command (.identifier :: .symbol .assign :: (e ++ [.symbol .semicolon]))
  | elementAssignment {i e : List Terminal} :
      Derives .expression i → Derives .expression e →
      Derives .command (.identifier :: .symbol .leftBracket ::
        (i ++ .symbol .rightBracket :: .symbol .assign :: (e ++ [.symbol .semicolon])))
  | operand {l : Level} {u : List Terminal} :
      l ≠ .factor → Derives (.level l.tighter) u → Derives (.level l) u
  | binary {l : Level} {mark : Symbol} {u v : List Terminal} :
      mark ∈ l.operators → Derives (.level l) u → Derives (.level l.tighter) v →
      Derives (.level l) (u ++ .symbol mark :: v)
  | signed {mark : Symbol} {u : List Terminal} :
      mark ∈ [.plus, .minus] → Derives .factor u → Derives .factor (.symbol mark :: u)
  | number : Derives .factor [.number]
  | text : Derives .factor [.text]
  | trueFactor : Derives .factor [.keyword .trueWord]
  | falseFactor : Derives .factor [.keyword .falseWord]
  | group {e : List Terminal} :
      Derives .expression e →
      Derives .factor (.symbol .leftParen :: (e ++ [.symbol .rightParen]))
  | array {a : List Terminal} :
      Derives (.optionalItems .expression) a →
      Derives .factor (.symbol .leftBracket :: (a ++ [.symbol .rightBracket]))
  | name : Derives .factor [.identifier]
  | call {a : List Terminal} :
      Derives (.optionalItems .expression) a →
      Derives .factor (.identifier :: .symbol .leftParen :: (a ++ [.symbol .rightParen]))
  | access {i : List Terminal} :
      Derives .expression i →
      Derives .factor (.identifier :: .symbol .leftBracket :: (i ++ [.symbol .rightBracket]))
  | length :
      Derives .factor [.keyword .len, .symbol .leftParen, .identifier, .symbol .rightParen]
  | noItems {item : Item} : Derives (.optionalItems item) []
  | someItems {item : Item} {u : List Terminal} :
      Derives (.items item) u → Derives (.optionalItems item) u
  | itemLast {item : Item} {u : List Terminal} :
      Derives item.category u → Derives (.items item) u
  | itemNext {item : Item} {u v : List Terminal} :
      Derives item.category u → Derives (.items item) v →
        Derives (.items item) (u ++ .symbol .comma :: v)

end LevelScript

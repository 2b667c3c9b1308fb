import LevelScript.Proofs.Checker.Derivation
import LevelScript.Proofs.Checker.Transitions

set_option autoImplicit false

namespace LevelScript.Checker

open Text (Bytes)

namespace Terminal

def commandStarts : List Terminal :=
  [.identifier, .keyword .ifWord, .keyword .untilWord, .keyword .during, .keyword .returnWord,
   .keyword .move, .keyword .attack, .keyword .gather, .keyword .use, .keyword .say,
   .keyword .wait, .symbol .leftBrace]

def statementStarts : List Terminal :=
  commandStarts ++ [.keyword .func, .keyword .entity]

def statementEnds : List Terminal :=
  statementStarts ++ [.symbol .rightBrace, .endOfInput]

def operandStarts : List Terminal :=
  [.identifier, .number, .text, .keyword .trueWord, .keyword .falseWord, .keyword .len,
   .symbol .leftParen, .symbol .leftBracket]

def expressionEnds : List Terminal :=
  [.symbol .semicolon, .symbol .rightParen, .symbol .rightBracket, .symbol .comma]

def logicalEnds : List Terminal :=
  expressionEnds ++ [.symbol .and, .symbol .or]

def relationEnds : List Terminal :=
  logicalEnds ++
    [.symbol .equal, .symbol .notEqual, .symbol .less, .symbol .greater, .symbol .atMost,
     .symbol .atLeast]

def sumEnds : List Terminal :=
  relationEnds ++ [.symbol .plus, .symbol .minus]

def termEnds : List Terminal :=
  sumEnds ++ [.symbol .times, .symbol .divide]

end Terminal

namespace Nonterminal

def nullable : Nonterminal → Bool
  | .program | .optionalResultType | .parameters | .members | .commands | .optionalElse
  | .optionalExpression | .optionalList => true
  | _ => false

def starts : Nonterminal → List Terminal
  | .type | .baseType => [.keyword .text, .keyword .number, .keyword .boolean, .keyword .array]
  | .optionalResultType => [.symbol .colon]
  | .parameters | .parameterList | .parameter => [.identifier]
  | .optionalElse => [.keyword .elseWord]
  | .block => [.symbol .leftBrace]
  | .assignment => [.identifier]
  | .optionalExpression | .expression | .logical | .relation | .sum | .term | .factor | .access
  | .lengthCall | .literal | .arrayLiteral | .optionalList | .list | .boolean =>
    Terminal.operandStarts
  | _ => Terminal.statementStarts

def followers : Nonterminal → List Terminal
  | .variableDeclaration => Terminal.statementEnds ++ Terminal.operandStarts
  | .type | .baseType =>
    [.symbol .assign, .symbol .leftBracket, .symbol .leftBrace, .symbol .comma, .symbol .rightParen]
  | .optionalResultType => [.symbol .leftBrace]
  | .parameters => [.symbol .rightParen]
  | .parameterList | .parameter => [.symbol .comma, .symbol .rightParen]
  | .assignment => Terminal.statementEnds ++ [.symbol .rightParen]
  | .block => Terminal.statementEnds ++ [.keyword .elseWord]
  | .optionalExpression => [.symbol .semicolon, .symbol .rightParen]
  | .expression => Terminal.expressionEnds
  | .logical => Terminal.logicalEnds
  | .relation => Terminal.relationEnds
  | .sum => Terminal.sumEnds
  | .term | .factor | .access | .lengthCall | .literal | .arrayLiteral | .boolean =>
    Terminal.termEnds
  | .optionalList => [.symbol .rightBracket]
  | .list => [.symbol .comma, .symbol .rightBracket]
  | _ => Terminal.statementEnds

end Nonterminal

namespace GrammarSymbol

def nullable : GrammarSymbol → Bool
  | .terminal _ => false
  | .nonterminal n => n.nullable

def starts : GrammarSymbol → List Terminal
  | .terminal t => [t]
  | .nonterminal n => n.starts

end GrammarSymbol

def startsOf : List GrammarSymbol → List Terminal
  | [] => []
  | symbol :: symbols => symbol.starts ++ if symbol.nullable then startsOf symbols else []

/-- Whether each nonterminal among the symbols may be followed by what comes after it, when the
terminal comes after them all. -/
def allows : List GrammarSymbol → Terminal → Bool
  | [], _ => true
  | .terminal _ :: symbols, t => allows symbols t
  | .nonterminal n :: symbols, t =>
    (startsOf symbols).all (n.followers.contains ·) &&
      (!symbols.all GrammarSymbol.nullable || n.followers.contains t) && allows symbols t

@[mk_iff] structure Production.Closed (production : Production) : Prop where
  starts : startsOf production.body ⊆ production.head.starts
  nullable : production.body.all GrammarSymbol.nullable → production.head.nullable
  followers : ∀ t ∈ production.head.followers, allows production.body t = true

instance (production : Production) : Decidable production.Closed :=
  decidable_of_iff' _ production.closed_iff

theorem Production.all_closed : ∀ production ∈ Production.all, production.Closed := by
  decide +kernel

theorem Production.closed (production : Production) : production.Closed :=
  all_closed production production.mem_all

theorem Parses.begins {symbols : List GrammarSymbol} {w : List Lexeme} {texts : List Bytes}
    {lines : List Line} (h : Parses symbols w texts lines) :
    (w = [] ∧ symbols.all GrammarSymbol.nullable = true) ∨
      ∃ lexeme rest, w = lexeme :: rest ∧ lexeme.terminal ∈ startsOf symbols := by
  induction h with
  | nil => exact .inl ⟨rfl, rfl⟩
  | @terminal lexeme symbols w _ _ _ _ =>
    exact .inr ⟨lexeme, w, rfl, List.mem_append_left _ (List.mem_singleton.2 rfl)⟩
  | @production production symbols u w _ _ _ _ _ _ ihu ihw =>
    rcases ihu with ⟨rfl, hnull⟩ | ⟨lexeme, rest, rfl, hmem⟩
    · have hhead : production.head.nullable = true := production.closed.nullable hnull
      rcases ihw with ⟨rfl, hrest⟩ | ⟨lexeme, rest, rfl, hmem⟩
      · exact .inl ⟨rfl, by simp [GrammarSymbol.nullable, hhead, hrest]⟩
      · exact .inr ⟨lexeme, rest, rfl, by simp [startsOf, GrammarSymbol.nullable, hhead, hmem]⟩
    · exact .inr ⟨lexeme, rest ++ w, rfl,
        List.mem_append_left _ (production.closed.starts hmem)⟩

theorem states_wait : ∀ row ∈ Table.states, ∀ production ∈ row.1.reduction,
    ∀ t ∈ production.head.followers, row.1.shift? t = none := by
  decide +kernel

/-- A reduction is not kept from being made by a terminal that may follow it. -/
theorem Table.shift?_follower {state : Nat} {row : TableRow} {production : Production}
    {t : Terminal} (hrow : row? state = some row) (hreduction : row.reduction = some production)
    (ht : t ∈ production.head.followers) : row.shift? t = none :=
  states_wait (row, state) (mem_states hrow) production hreduction t ht

end LevelScript.Checker

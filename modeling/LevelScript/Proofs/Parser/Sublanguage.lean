import LevelScript.Proofs.Checker.Rejection
import LevelScript.Proofs.Checker.StackDepth
import LevelScript.Proofs.Parser.Declaration
import LevelScript.Proofs.Token.Agreement

set_option autoImplicit false

/-!
# The checked language within the language

A sentence of the checked grammar is a program of the language, unless it has a `during` in it or
brackets after a type. Each nonterminal is given what its tokens are read as. Every production
keeps to that, so every parse does, and the declarations that are reported are those of the tree.
-/

namespace LevelScript

open Checker (GrammarSymbol Line Nonterminal Parses Production Terminal Verdict)
open Text (Bytes encodeUtf8)

/-- No `during` stands among the kinds, and no type has brackets after it. -/
structure Plain (kinds : List Terminal) : Prop where
  noDuring : .keyword .during ∉ kinds
  noBrackets : ∀ type ∈ Keyword.types,
    ¬ [.keyword type, .symbol .leftBracket, .symbol .rightBracket] <:+: kinds

theorem Plain.part {u w : List Terminal} (h : Plain w) (hu : u <:+: w) : Plain u where
  noDuring := fun hmem => h.noDuring (hu.subset hmem)
  noBrackets := fun type htype hbrackets => h.noBrackets type htype (hbrackets.trans hu)

namespace Checker

def Line.isDeclaration : Line → Bool
  | .variable _ | .function _ => true
  | _ => false

def Production.declared (production : Production) (tokens : List Token) : List Line :=
  match production, tokens with
  | .variableDeclaration, .identifier name :: _ => [.variable (encodeUtf8 name)]
  | .functionDeclaration, _ :: .identifier name :: _ => [.function (encodeUtf8 name)]
  | _, _ => []

/-- What the tokens of a nonterminal are read as, with the lines of what they declare. Expressions,
types and parameters declare nothing, so that their kinds are enough. -/
def Nonterminal.Means (n : Nonterminal) (tokens : List Token) (lines : List Line) : Prop :=
  let Silent (derived : List Terminal → Prop) := derived (tokens.map Token.terminal) ∧ lines = []
  match n with
  | .program | .declaration => Yields .program tokens lines
  | .variableDeclaration => Yields .variableDeclaration tokens lines
  | .functionDeclaration => Yields .functionDeclaration tokens lines
  | .entityDeclaration => Yields .entity tokens lines
  | .members | .member => Yields .members tokens lines
  | .commands => Yields .commands tokens lines
  | .command | .assignment | .conditional | .loop | .result | .action =>
    Yields .command tokens lines
  | .block => Yields .block tokens lines
  | .optionalElse =>
    (tokens = [] ∧ lines = []) ∨
      ∃ rest, tokens = .keyword .elseWord :: rest ∧ Yields .block rest lines
  | .type | .baseType => Silent fun kinds => ∃ word ∈ Keyword.types, kinds = [.keyword word]
  | .optionalResultType => Silent DerivesType
  | .parameters => Silent (Derives (.optionalItems .parameter))
  | .parameterList => Silent (Derives (.items .parameter))
  | .parameter => Silent (Derives .parameter)
  | .optionalExpression => Silent fun kinds => kinds = [] ∨ Derives .expression kinds
  | .expression | .logical => Silent (Derives .expression)
  | .relation => Silent (Derives (.level .relation))
  | .sum => Silent (Derives (.level .sum))
  | .term => Silent (Derives (.level .term))
  | .factor | .access | .lengthCall | .literal | .arrayLiteral | .boolean =>
    Silent (Derives .factor)
  | .optionalList => Silent (Derives (.optionalItems .expression))
  | .list => Silent (Derives (.items .expression))

inductive Region where
  | type
  | expression
  | command
  | declaration
  | sequence
  deriving DecidableEq, Repr

def Nonterminal.region : Nonterminal → Region
  | .type | .baseType | .optionalResultType | .parameters | .parameterList | .parameter => .type
  | .optionalExpression | .expression | .logical | .relation | .sum | .term | .factor | .access
  | .lengthCall | .literal | .arrayLiteral | .optionalList | .list | .boolean => .expression
  | .commands | .command | .assignment | .conditional | .optionalElse | .loop | .result | .block
  | .action => .command
  | .variableDeclaration | .functionDeclaration => .declaration
  | .program | .declaration | .entityDeclaration | .members | .member => .sequence

/-- The symbols stand for the tokens, and have these lines of declarations. -/
def Meant : List GrammarSymbol → List Token → List Line → Prop
  | [], tokens, lines => tokens = [] ∧ lines = []
  | .terminal t :: symbols, tokens, lines =>
    ∃ token rest, token.terminal = t ∧ tokens = token :: rest ∧ Meant symbols rest lines
  | .nonterminal n :: symbols, tokens, lines =>
    ∃ u v j k, n.Means u j ∧ tokens = u ++ v ∧ lines = j ++ k ∧ Meant symbols v k

end Checker

theorem Derives.loosen {u : List Terminal} (h : Derives .factor u) : Derives .expression u := by
  have hterm : Derives (.level .term) u := .operand (by decide) h
  have hsum : Derives (.level .sum) u := .operand (by decide) hterm
  have hrelation : Derives (.level .relation) u := .operand (by decide) hsum
  exact .operand (by decide) hrelation

namespace Checker.Meant

variable {production : Production} {tokens : List Token} {lines : List Line} {m n : Nonterminal}

theorem symbol {mark : Symbol} {symbols : List GrammarSymbol}
    (h : Meant (.terminal (.symbol mark) :: symbols) tokens lines) :
    ∃ rest, tokens = .symbol mark :: rest ∧ Meant symbols rest lines := by
  obtain ⟨token, rest, htoken, rfl, hrest⟩ := h
  obtain rfl := Token.terminal_eq_symbol htoken
  exact ⟨rest, rfl, hrest⟩

theorem keyword {word : Keyword} {symbols : List GrammarSymbol}
    (h : Meant (.terminal (.keyword word) :: symbols) tokens lines) :
    ∃ rest, tokens = .keyword word :: rest ∧ Meant symbols rest lines := by
  obtain ⟨token, rest, htoken, rfl, hrest⟩ := h
  obtain rfl := Token.terminal_eq_keyword htoken
  exact ⟨rest, rfl, hrest⟩

theorem identifier {symbols : List GrammarSymbol}
    (h : Meant (.terminal .identifier :: symbols) tokens lines) :
    ∃ name rest, tokens = .identifier name :: rest ∧ Meant symbols rest lines := by
  obtain ⟨token, rest, htoken, rfl, hrest⟩ := h
  obtain ⟨name, rfl⟩ := Token.terminal_eq_identifier htoken
  exact ⟨name, rest, rfl, hrest⟩

theorem unit (h : Meant [.nonterminal n] tokens lines) : n.Means tokens lines := by
  obtain ⟨u, _, j, _, hmeans, rfl, rfl, rfl, rfl⟩ := h
  rwa [List.append_nil, List.append_nil]

theorem between {mark : Symbol}
    (h : Meant [.nonterminal m, .terminal (.symbol mark), .nonterminal n] tokens lines) :
    ∃ u v j k, m.Means u j ∧ n.Means v k ∧ tokens = u ++ .symbol mark :: v ∧ lines = j ++ k := by
  obtain ⟨u, _, j, k, hu, rfl, rfl, h₁⟩ := h
  obtain ⟨v, rfl, h₂⟩ := h₁.symbol
  exact ⟨u, v, j, k, hu, h₂.unit, rfl, rfl⟩

theorem enclosed {first last : Symbol}
    (h : Meant [.terminal (.symbol first), .nonterminal n, .terminal (.symbol last)] tokens
      lines) :
    ∃ u, n.Means u lines ∧ tokens = .symbol first :: (u ++ [.symbol last]) := by
  obtain ⟨_, rfl, u, _, j, _, hu, rfl, rfl, h₁⟩ := h.symbol
  obtain ⟨_, rfl, rfl, rfl⟩ := h₁.symbol
  rw [List.append_nil]
  exact ⟨u, hu, rfl⟩

theorem type (h : Meant production.body tokens lines) (hplain : Plain (tokens.map Token.terminal))
    (hregion : production.head.region = .type) : production.head.Means tokens lines := by
  cases production with
  | typeBase => exact h.unit
  | typeArray =>
    -- the type inside has no brackets by induction, so these are the first after its word
    obtain ⟨u, _, _, _, ⟨⟨word, hword, hkinds⟩, rfl⟩, rfl, rfl, h₁⟩ := h
    obtain ⟨_, rfl, h₂⟩ := h₁.symbol
    obtain ⟨_, rfl, rfl, rfl⟩ := h₂.symbol
    rw [List.map_append, hkinds] at hplain
    exact absurd List.infix_rfl (hplain.noBrackets word hword)
  | baseText | baseNumber | baseBoolean | baseArray =>
    obtain ⟨_, rfl, rfl, rfl⟩ := h.keyword
    exact ⟨⟨_, by decide, rfl⟩, rfl⟩
  | resultTypeNone =>
    obtain ⟨rfl, rfl⟩ := h
    exact ⟨.none, rfl⟩
  | resultTypeGiven =>
    obtain ⟨u, rfl, h₁⟩ := h.symbol
    obtain ⟨⟨word, hword, hkinds⟩, rfl⟩ := h₁.unit
    refine ⟨?_, rfl⟩
    rw [List.map_cons, hkinds]
    exact .some hword
  | parametersNone =>
    obtain ⟨rfl, rfl⟩ := h
    exact ⟨.noItems, rfl⟩
  | parametersGiven =>
    obtain ⟨hitems, rfl⟩ := h.unit
    exact ⟨.someItems hitems, rfl⟩
  | parameterFirst =>
    obtain ⟨hitem, rfl⟩ := h.unit
    exact ⟨.itemLast hitem, rfl⟩
  | parameterNext =>
    obtain ⟨u, v, j, k, ⟨hu, rfl⟩, ⟨hv, rfl⟩, rfl, rfl⟩ := h.between
    refine ⟨?_, rfl⟩
    rw [List.map_append]
    exact hu.item_append hv
  | parameter =>
    obtain ⟨name, _, rfl, h₁⟩ := h.identifier
    obtain ⟨u, rfl, h₂⟩ := h₁.symbol
    obtain ⟨⟨word, hword, hkinds⟩, rfl⟩ := h₂.unit
    refine ⟨?_, rfl⟩
    rw [List.map_cons, List.map_cons, hkinds]
    exact .parameter hword
  | _ => cases hregion

theorem expression (h : Meant production.body tokens lines)
    (hregion : production.head.region = .expression) :
    production.head.Means tokens lines := by
  cases production with
  | expressionNone =>
    obtain ⟨rfl, rfl⟩ := h
    exact ⟨.inl rfl, rfl⟩
  | expressionGiven =>
    obtain ⟨hexpression, rfl⟩ := h.unit
    exact ⟨.inr hexpression, rfl⟩
  | expression | factorLiteral | factorAccess | factorLength | literalBoolean | literalArray =>
    exact h.unit
  | logicalFirst | relationFirst | sumFirst | termFirst =>
    obtain ⟨hoperand, rfl⟩ := h.unit
    exact ⟨.operand (by decide) hoperand, rfl⟩
  | logicalAnd | logicalOr | relationEqual | relationNotEqual | relationLess | relationGreater
  | relationAtMost | relationAtLeast | sumPlus | sumMinus | termTimes | termDivide =>
    obtain ⟨u, v, j, k, ⟨hu, rfl⟩, ⟨hv, rfl⟩, rfl, rfl⟩ := h.between
    refine ⟨?_, rfl⟩
    rw [List.map_append]
    exact .binary (by decide) hu hv
  | factorName =>
    obtain ⟨name, _, rfl, rfl, rfl⟩ := h.identifier
    exact ⟨.name, rfl⟩
  | factorGroup =>
    obtain ⟨u, ⟨hu, rfl⟩, rfl⟩ := h.enclosed
    refine ⟨?_, rfl⟩
    rw [List.map_cons, List.map_append]
    exact .group hu
  | access =>
    obtain ⟨name, _, rfl, h₁⟩ := h.identifier
    obtain ⟨u, ⟨hu, rfl⟩, rfl⟩ := h₁.enclosed
    refine ⟨?_, rfl⟩
    rw [List.map_cons, List.map_cons, List.map_append]
    exact .access hu
  | lengthCall =>
    obtain ⟨_, rfl, h₁⟩ := h.keyword
    obtain ⟨_, rfl, h₂⟩ := h₁.symbol
    obtain ⟨name, _, rfl, h₃⟩ := h₂.identifier
    obtain ⟨_, rfl, rfl, rfl⟩ := h₃.symbol
    exact ⟨.length, rfl⟩
  | literalNumber =>
    obtain ⟨token, _, htoken, rfl, rfl, rfl⟩ := h
    refine ⟨?_, rfl⟩
    rw [List.map_singleton, htoken]
    exact .number
  | literalText =>
    obtain ⟨token, _, htoken, rfl, rfl, rfl⟩ := h
    refine ⟨?_, rfl⟩
    rw [List.map_singleton, htoken]
    exact .text
  | arrayLiteral =>
    obtain ⟨u, ⟨hu, rfl⟩, rfl⟩ := h.enclosed
    refine ⟨?_, rfl⟩
    rw [List.map_cons, List.map_append]
    exact .array hu
  | listNone =>
    obtain ⟨rfl, rfl⟩ := h
    exact ⟨.noItems, rfl⟩
  | listGiven =>
    obtain ⟨hitems, rfl⟩ := h.unit
    exact ⟨.someItems hitems, rfl⟩
  | listFirst =>
    obtain ⟨hitem, rfl⟩ := h.unit
    exact ⟨.itemLast hitem, rfl⟩
  | listNext =>
    obtain ⟨u, v, j, k, ⟨hu, rfl⟩, ⟨hv, rfl⟩, rfl, rfl⟩ := h.between
    refine ⟨?_, rfl⟩
    rw [List.map_append]
    exact hu.item_append hv
  | booleanTrue =>
    obtain ⟨_, rfl, rfl, rfl⟩ := h.keyword
    exact ⟨.trueFactor, rfl⟩
  | booleanFalse =>
    obtain ⟨_, rfl, rfl, rfl⟩ := h.keyword
    exact ⟨.falseFactor, rfl⟩
  | _ => cases hregion

theorem called {word : Keyword} {symbol : GrammarSymbol}
    (h : Meant [.terminal (.keyword word), .terminal (.symbol .leftParen), symbol,
      .terminal (.symbol .rightParen), .terminal (.symbol .semicolon)] tokens lines) :
    ∃ u, Meant [symbol] u lines ∧ tokens = .keyword word :: .symbol .leftParen ::
      (u ++ [.symbol .rightParen, .symbol .semicolon]) := by
  obtain ⟨_, rfl, h₁⟩ := h.keyword
  obtain ⟨_, rfl, h₂⟩ := h₁.symbol
  cases symbol with
  | terminal t =>
    obtain ⟨token, _, htoken, rfl, h₃⟩ := h₂
    obtain ⟨_, rfl, h₄⟩ := h₃.symbol
    obtain ⟨_, rfl, rfl, rfl⟩ := h₄.symbol
    exact ⟨[token], ⟨token, [], htoken, rfl, rfl, rfl⟩, rfl⟩
  | nonterminal n =>
    obtain ⟨u, _, j, _, hu, rfl, rfl, h₃⟩ := h₂
    obtain ⟨_, rfl, h₄⟩ := h₃.symbol
    obtain ⟨_, rfl, rfl, rfl⟩ := h₄.symbol
    exact ⟨u, ⟨u, [], j, [], hu, (List.append_nil u).symm, rfl, rfl, rfl⟩, rfl⟩

theorem argument {symbol : GrammarSymbol} (h : Meant [symbol] tokens lines)
    (hsymbol : symbol ∈ [.nonterminal .expression, .nonterminal .optionalExpression,
      .terminal .identifier, .terminal .text, .terminal .number]) :
    Derives (.optionalItems .expression) (tokens.map Token.terminal) ∧ lines = [] := by
  have hfactor {t : Terminal} (ht : Derives .factor [t]) (h : Meant [.terminal t] tokens lines) :
      Derives (.optionalItems .expression) (tokens.map Token.terminal) ∧ lines = [] := by
    obtain ⟨token, _, rfl, rfl, rfl, rfl⟩ := h
    exact ⟨.someItems (.itemLast ht.loosen), rfl⟩
  simp only [List.mem_cons, List.not_mem_nil, or_false] at hsymbol
  rcases hsymbol with rfl | rfl | rfl | rfl | rfl
  · obtain ⟨hexpression, hlines⟩ := h.unit
    exact ⟨.someItems (.itemLast hexpression), hlines⟩
  · obtain ⟨hnone | hexpression, hlines⟩ := h.unit
    · rw [hnone]
      exact ⟨.noItems, hlines⟩
    · exact ⟨.someItems (.itemLast hexpression), hlines⟩
  · exact hfactor .name h
  · exact hfactor .text h
  · exact hfactor .number h

theorem command (h : Meant production.body tokens lines)
    (hplain : Plain (tokens.map Token.terminal))
    (hregion : production.head.region = .command) : production.head.Means tokens lines := by
  cases production with
  | commandsNone =>
    obtain ⟨rfl, rfl⟩ := h
    exact .empty rfl
  | commandsNext =>
    -- the sequence grows at its end here, but is read from its beginning
    obtain ⟨u, v, j, k, hu, rfl, rfl, hv⟩ := h
    exact .append (by decide) hu (Yields.oneCommand hv.unit)
  | commandAssignment | commandConditional | commandLoop | commandAction | commandResult =>
    exact h.unit
  | commandBlock => exact Yields.blocked h.unit
  | assignment =>
    obtain ⟨name, _, rfl, h₁⟩ := h.identifier
    obtain ⟨u, ⟨hu, rfl⟩, rfl⟩ := h₁.enclosed
    exact .assignment hu
  | elementAssignment =>
    obtain ⟨name, _, rfl, h₁⟩ := h.identifier
    obtain ⟨_, rfl, u, _, _, _, ⟨hu, rfl⟩, rfl, rfl, h₂⟩ := h₁.symbol
    obtain ⟨_, rfl, h₃⟩ := h₂.symbol
    obtain ⟨v, ⟨hv, rfl⟩, rfl⟩ := h₃.enclosed
    exact .elementAssignment hu hv
  | conditional =>
    obtain ⟨_, rfl, h₁⟩ := h.keyword
    obtain ⟨_, rfl, u, _, _, _, ⟨hu, rfl⟩, rfl, rfl, h₂⟩ := h₁.symbol
    obtain ⟨_, rfl, v, w, j, k, hv, rfl, rfl, hw⟩ := h₂.symbol
    rcases hw.unit with ⟨rfl, rfl⟩ | ⟨rest, rfl, hrest⟩
    · rw [List.append_nil, List.append_nil]
      exact .conditional hu (Yields.blocked hv)
    · exact .conditionalElse hu hv (Yields.blocked hrest)
  | elseNone => exact .inl h
  | elseGiven =>
    obtain ⟨rest, rfl, hrest⟩ := h.keyword
    exact .inr ⟨rest, rfl, hrest.unit⟩
  | loopUntil =>
    obtain ⟨_, rfl, h₁⟩ := h.keyword
    obtain ⟨_, rfl, u, _, _, _, ⟨hu, rfl⟩, rfl, rfl, h₂⟩ := h₁.symbol
    obtain ⟨v, rfl, hv⟩ := h₂.symbol
    exact .loop hu (Yields.blocked hv.unit)
  | loopDuring =>
    obtain ⟨token, rest, htoken, rfl, _⟩ := h
    rw [List.map_cons, htoken] at hplain
    exact absurd List.mem_cons_self hplain.noDuring
  | result =>
    obtain ⟨_, rfl, u, _, _, _, ⟨hu, rfl⟩, rfl, rfl, h₁⟩ := h.keyword
    obtain ⟨_, rfl, rfl, rfl⟩ := h₁.symbol
    rcases hu with hnone | hexpression
    · obtain rfl := List.map_eq_nil_iff.1 hnone
      exact .resultNone
    · exact .result hexpression
  | block =>
    obtain ⟨u, hu, rfl⟩ := h.enclosed
    exact .block hu
  | actionMove | actionAttack | actionGather | actionUse | actionSay | actionWait =>
    obtain ⟨u, hu, rfl⟩ := h.called
    obtain ⟨hargument, rfl⟩ := hu.argument (by decide)
    exact .action (by decide) hargument
  | _ => cases hregion

theorem declaration (h : Meant production.body tokens lines)
    (hregion : production.head.region = .declaration) :
    production.head.Means tokens (lines ++ production.declared tokens) := by
  cases production with
  | variableDeclaration =>
    obtain ⟨name, _, rfl, h₁⟩ := h.identifier
    obtain ⟨_, rfl, u, _, _, _, ⟨⟨word, hword, hkinds⟩, rfl⟩, rfl, rfl, h₂⟩ := h₁.symbol
    obtain ⟨v, ⟨hv, rfl⟩, rfl⟩ := h₂.enclosed
    obtain ⟨type, htype⟩ := Keyword.typeName?_of_mem_types hword
    obtain ⟨token, rfl, htoken⟩ := List.map_eq_singleton_iff.1 hkinds
    obtain rfl := Token.terminal_eq_keyword htoken
    exact .variableDeclaration htype hv
  | functionDeclaration =>
    obtain ⟨_, rfl, h₁⟩ := h.keyword
    obtain ⟨name, _, rfl, h₂⟩ := h₁.identifier
    obtain ⟨_, rfl, parameters, _, _, _, ⟨hparameters, rfl⟩, rfl, rfl, h₃⟩ := h₂.symbol
    obtain ⟨_, rfl, type, _, _, _, ⟨htype, rfl⟩, rfl, rfl, h₄⟩ := h₃.symbol
    obtain ⟨body, hbody, rfl⟩ := h₄.enclosed
    obtain ⟨result, hresult⟩ := htype.reads type rfl
    exact .functionDeclaration hparameters hresult (Yields.block hbody)
  | _ => cases hregion

theorem program (h : Meant production.body tokens lines)
    (hregion : production.head.region = .sequence) :
    production.head.Means tokens lines := by
  cases production with
  | programEmpty | membersNone =>
    obtain ⟨rfl, rfl⟩ := h
    exact .empty rfl
  | programDeclaration | membersNext =>
    obtain ⟨u, v, j, k, hu, rfl, rfl, hv⟩ := h
    exact .append (by decide) hu hv.unit
  | programCommand =>
    obtain ⟨u, v, j, k, hu, rfl, rfl, hv⟩ := h
    exact .append (by decide) hu (Yields.topLevel (by decide) hv.unit)
  | declarationVariable => exact .topLevel (by decide) (Yields.declared h.unit)
  | declarationFunction | declarationEntity => exact Yields.topLevel (by decide) h.unit
  | entityDeclaration =>
    obtain ⟨_, rfl, h₁⟩ := h.keyword
    obtain ⟨name, _, rfl, h₂⟩ := h₁.identifier
    obtain ⟨u, hu, rfl⟩ := h₂.enclosed
    exact .entity hu
  | memberVariable | memberFunction => exact Yields.member (by decide) h.unit
  | _ => cases hregion

theorem head (h : Meant production.body tokens lines)
    (hplain : Plain (tokens.map Token.terminal)) :
    production.head.Means tokens (lines ++ production.declared tokens) := by
  by_cases hdeclares : production.head.region = .declaration
  · exact h.declaration hdeclares
  · have hnone : production.declared tokens = [] := by
      cases production <;> first | rfl | exact absurd rfl hdeclares
    rw [hnone, List.append_nil]
    cases hregion : production.head.region with
    | type => exact h.type hplain hregion
    | expression => exact h.expression hregion
    | command => exact h.command hplain hregion
    | declaration => exact absurd hregion hdeclares
    | sequence => exact h.program hregion

end Checker.Meant

namespace Checker

theorem Parses.first {t : Terminal} {symbols : List GrammarSymbol} {w : List Lexeme}
    {texts : List Bytes} {lines : List Line}
    (h : Parses (.terminal t :: symbols) w texts lines) :
    ∃ lexeme rest more, lexeme.terminal = t ∧ w = lexeme :: rest ∧ texts = lexeme.text :: more ∧
      Parses symbols rest more lines := by
  generalize hsymbols : GrammarSymbol.terminal t :: symbols = all at h
  cases h with
  | nil => cases hsymbols
  | terminal hrest =>
    cases hsymbols
    exact ⟨_, _, _, rfl, rfl, rfl, hrest⟩
  | production _ _ => cases hsymbols

theorem Parses.filter_line? {production : Production} {u : List Lexeme} {parts : List Bytes}
    {inner : List Line} {tokens : List Token} (h : Parses production.body u parts inner)
    (hwrites : List.Forall₂ Lexeme.Writes u tokens) :
    (production.line? parts).toList.filter Line.isDeclaration = production.declared tokens := by
  cases production with
  | variableDeclaration =>
    obtain ⟨lexeme, _, _, hterminal, rfl, rfl, _⟩ := h.first
    cases hwrites with
    | cons hone _ =>
      obtain ⟨name, rfl⟩ := Token.terminal_eq_identifier (hone.1.symm.trans hterminal)
      have htext : lexeme.text = encodeUtf8 name := hone.2
      simp [Production.line?, Line.isDeclaration, Production.declared, htext]
  | functionDeclaration =>
    obtain ⟨_, _, _, _, rfl, rfl, hrest⟩ := h.first
    obtain ⟨lexeme, _, _, hterminal, rfl, rfl, _⟩ := hrest.first
    cases hwrites with
    | cons _ hmore =>
      cases hmore with
      | cons hone _ =>
        obtain ⟨name, rfl⟩ := Token.terminal_eq_identifier (hone.1.symm.trans hterminal)
        have htext : lexeme.text = encodeUtf8 name := hone.2
        simp [Production.line?, Line.isDeclaration, Production.declared, htext]
  | _ => rcases parts with _ | ⟨_, _ | ⟨_, _ | ⟨_, _⟩⟩⟩ <;> rfl

/-- What has been parsed is meant, and the lines of declarations are those of its tokens. -/
theorem Parses.meant {symbols : List GrammarSymbol} {w : List Lexeme} {texts : List Bytes}
    {lines : List Line} (h : Parses symbols w texts lines) {tokens : List Token}
    (hwrites : List.Forall₂ Lexeme.Writes w tokens) (hplain : Plain (tokens.map Token.terminal)) :
    Meant symbols tokens (lines.filter Line.isDeclaration) := by
  induction h generalizing tokens with
  | nil =>
    cases hwrites
    exact ⟨rfl, rfl⟩
  | terminal _ ih =>
    cases hwrites with
    | @cons _ token _ rest hone hrest =>
      have hinside : rest.map Token.terminal <:+: (token :: rest).map Token.terminal :=
        (List.suffix_cons _ _).isInfix
      exact ⟨token, rest, hone.1.symm, rfl, ih hrest (hplain.part hinside)⟩
  | @production production symbols u w parts texts inner lines hbody _ ihbody ih =>
    obtain ⟨front, back, rfl, hfront, hback⟩ : ∃ front back, tokens = front ++ back ∧
        List.Forall₂ Lexeme.Writes u front ∧ List.Forall₂ Lexeme.Writes w back := by
      refine ⟨tokens.take u.length, tokens.drop u.length, (List.take_append_drop ..).symm, ?_, ?_⟩
      · simpa using List.forall₂_take u.length hwrites
      · simpa using List.forall₂_drop u.length hwrites
    rw [List.map_append] at hplain
    have hplainFront := hplain.part (List.prefix_append ..).isInfix
    have hplainBack := hplain.part (List.suffix_append ..).isInfix
    have hhead := (ihbody hfront hplainFront).head hplainFront
    refine ⟨front, back, _, _, hhead, rfl, ?_, ih hback hplainBack⟩
    rw [List.filter_append, List.filter_append, hbody.filter_line? hfront, List.append_assoc]

theorem Parses.end_notMem {symbols : List GrammarSymbol} {w : List Lexeme} {texts : List Bytes}
    {lines : List Line} (h : Parses symbols w texts lines)
    (hsymbols : .terminal .endOfInput ∉ symbols) :
    ∀ lexeme ∈ w, lexeme.terminal ≠ .endOfInput := by
  induction h with
  | nil => nofun
  | terminal _ ih =>
    rw [List.mem_cons, not_or] at hsymbols
    refine List.forall_mem_cons.2 ⟨?_, ih hsymbols.2⟩
    intro hend
    exact hsymbols.1 (by rw [hend])
  | @production production _ _ _ _ _ _ _ _ _ ihbody ih =>
    have hbody : .terminal .endOfInput ∉ production.body := by
      cases production <;> decide
    rw [List.mem_cons, not_or] at hsymbols
    exact List.forall_mem_append.2 ⟨ihbody hbody, ih hsymbols.2⟩

theorem parses_of_accepted {w : List Lexeme} (hend : ∀ lexeme ∈ w, lexeme.terminal ≠ .endOfInput)
    (haccepted : (Verdict.ofFeed (.ofLexemes w)).halt = .accepted) :
    ∃ texts, Parses [.nonterminal .program] w texts (Verdict.ofFeed (.ofLexemes w)).lines := by
  obtain ⟨n, c, hruns, hhalt, hlines⟩ := Verdict.runs_of_ofFeed (Verdict.halt_ne_stuck _)
  rw [haccepted] at hhalt
  obtain ⟨top, below, hstack, htop⟩ := Configuration.final_of_accepted hhalt
  rw [hlines]
  exact ((Invariant.start w).runs hruns).program hend hstack htop

theorem exists_parse {w : List Lexeme} (h : w.map Lexeme.terminal ∈ grammar.language) :
    ∃ texts lines, Parses [.nonterminal .program] w texts lines ∧
      ((∀ text, (Verdict.ofFeed (.ofLexemes w)).halt ≠ .stackFull text) →
        (Verdict.ofFeed (.ofLexemes w)).halt = .accepted ∧
          (Verdict.ofFeed (.ofLexemes w)).lines = lines) := by
  obtain ⟨texts, lines, hparses⟩ := (mem_language_iff_parses w).1 h
  by_cases hfull : ∃ text, (Verdict.ofFeed (.ofLexemes w)).halt = .stackFull text
  · obtain ⟨text, htext⟩ := hfull
    exact ⟨texts, lines, hparses, fun hroom => absurd htext (hroom text)⟩
  · obtain ⟨n, c, hruns, hhalt, _⟩ := Verdict.runs_of_ofFeed (Verdict.halt_ne_stuck (.ofLexemes w))
    have hroom := roomy_of_halted hruns hhalt (not_exists.1 hfull)
    have haccepted := accepted_of_parses hparses hroom
    obtain ⟨texts, hprogram⟩ := parses_of_accepted (hparses.end_notMem (by decide)) haccepted
    exact ⟨texts, _, hprogram, fun _ => ⟨haccepted, rfl⟩⟩

end Checker

theorem parseAt_of_parses {built : Nat} {w : List Checker.Lexeme} {stream : TokenStream}
    {texts : List Bytes} {lines : List Line}
    (h : Parses [.nonterminal .program] w texts lines)
    (hplain : Plain (w.map Checker.Lexeme.terminal)) (hfault : stream.fault? = none)
    (hwrites : List.Forall₂ Checker.Lexeme.Writes w stream.words) :
    ∃ cursor node state, Cursor.ofStream stream = .ok cursor ∧
      Construct.program.parseAt built cursor = .ok (node, state) ∧
      node.declarations = lines.filter Line.isDeclaration := by
  rw [Checker.Lexeme.Writes.terminals hwrites] at hplain
  have hprogram : Yields .program stream.words (lines.filter Line.isDeclaration) :=
    (h.meant hwrites hplain).unit
  obtain ⟨nodes, m, hreads, hlines⟩ := hprogram built
  obtain ⟨cursor, rest, hcursor, hparse⟩ := program_parseAt hfault hreads
  refine ⟨cursor, _, _, hcursor, hparse, ?_⟩
  rw [Node.declarations_eq, ← hlines]
  exact List.append_nil _

def Token.nested (depth : Nat) : List Token :=
  [.identifier "x", .symbol .colon, .keyword .number, .symbol .assign] ++
    ((List.replicate depth (.symbol .leftParen) ++
      .number 1 :: List.replicate depth (.symbol .rightParen)) ++ [.symbol .semicolon])

theorem Checker.Lexeme.Writes.replicate {lexeme : Checker.Lexeme} {token : Token}
    (h : lexeme.Writes token) (n : Nat) :
    List.Forall₂ Checker.Lexeme.Writes (List.replicate n lexeme) (List.replicate n token) := by
  induction n with
  | zero => exact .nil
  | succ n ih => exact .cons h ih

theorem Checker.writes_nested (depth : Nat) :
    List.Forall₂ Lexeme.Writes (nested depth) (Token.nested depth) := by
  have hheader : List.Forall₂ Lexeme.Writes header
      [.identifier "x", .symbol .colon, .keyword .number, .symbol .assign] := by
    simp [header, Lexeme.Writes, Token.terminal]
    decide
  have hopening : Lexeme.Writes opening (.symbol .leftParen) := ⟨rfl, trivial⟩
  have hclosing : Lexeme.Writes closing (.symbol .rightParen) := ⟨rfl, trivial⟩
  have hone : Lexeme.Writes ⟨.number, [49]⟩ (.number 1) := ⟨rfl, fun _ => by decide⟩
  have hlast : List.Forall₂ Lexeme.Writes [⟨.symbol .semicolon, [59]⟩] [.symbol .semicolon] :=
    .cons ⟨rfl, trivial⟩ .nil
  exact List.rel_append hheader (List.rel_append
    (List.rel_append (hopening.replicate depth) (.cons hone (hclosing.replicate depth))) hlast)

theorem Checker.plain_nested (depth : Nat) : Plain ((nested depth).map Lexeme.terminal) := by
  have hnone : ∀ kind ∈ [Terminal.keyword .during, .symbol .leftBracket],
      kind ∉ (nested depth).map Lexeme.terminal := by
    simp [nested, header, parenthesised, opening, closing]
  constructor
  · exact hnone _ (by decide)
  · intro type _ hbrackets
    exact hnone (.symbol .leftBracket) (by decide) (hbrackets.subset (by simp))

end LevelScript

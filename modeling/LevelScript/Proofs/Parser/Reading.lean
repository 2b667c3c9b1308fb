import LevelScript.Proofs.Parser.Grammar

set_option autoImplicit false

/-!
# Readings

A reading of tokens is a derivation that keeps its tree: which nodes the tokens stand for, and
which numbers the nodes have when `n` nodes were numbered before. Unlike the grammar it settles
the two places where a derivation has a choice. An `else` belongs to the nearest conditional that
can take it, and a semicolon among the commands of a block is passed over. Every derivable
sequence has a reading, and every reading is of a derivable sequence.
-/

namespace LevelScript

open Checker (Terminal)

def Level.op? : Level → Token → Option BinaryOp
  | .logical => Token.logicalOp?
  | .relation => Token.relationOp?
  | .sum => Token.sumOp?
  | .term => Token.productOp?
  | .factor => fun _ => none

def Token.sign? : Token → Option UnaryOp
  | .symbol .plus => some .plus
  | .symbol .minus => some .minus
  | _ => none

/-- An `else` after this command would be taken as its own. -/
def Node.dangles : Node → Bool
  | .conditional _ _ _ none => true
  | .conditional _ _ _ (some negative) => negative.dangles
  | .loop _ _ body => body.dangles
  | _ => false

inductive ReadsType : List Token → Option TypeName → Prop where
  | none : ReadsType [] none
  | some {word : Keyword} {type : TypeName} :
      word.typeName? = some type → ReadsType [.symbol .colon, .keyword word] (some type)

/-- `Reads category n tokens nodes m`: the tokens stand for these nodes, which are built when the
numbers up to `n` are taken, and those up to `m` are taken then. -/
inductive Reads : Category → Nat → List Token → List Node → Nat → Prop where
  | programEnd {n : Nat} : Reads .program n [] [] n
  | programNext {category : Category} {n m k : Nat} {u v : List Token} {node : Node}
      {nodes : List Node} :
      category ∈ [.functionDeclaration, .entity, .command] →
      Reads category n u [node] m → Reads .program m v nodes k →
      Reads .program n (u ++ v) (node :: nodes) k
  | variableDeclaration {n m : Nat} {name : String} {word : Keyword} {type : TypeName}
      {e : List Token} {value : Node} :
      word.typeName? = some type → Reads .expression (n + 1) e [value] m →
      Reads .variableDeclaration n (.identifier name :: .symbol .colon :: .keyword word ::
          .symbol .assign :: (e ++ [.symbol .semicolon]))
        [.declaration (m + 1) (some type) (.identifier (n + 1) name) (some value)] (m + 1)
  | functionDeclaration {n m k : Nat} {name : String} {p r b : List Token}
      {parameters : List Node} {result : Option TypeName} {body : Node} :
      Reads (.optionalItems .parameter) n p parameters m → ReadsType r result →
      Reads .block m b [body] k →
      Reads .functionDeclaration n (.keyword .func :: .identifier name :: .symbol .leftParen ::
          (p ++ .symbol .rightParen :: (r ++ b)))
        [.function (k + 1) name result (.identifier (k + 2) name :: parameters ++ [body])] (k + 2)
  | parameter {n : Nat} {name : String} {word : Keyword} {type : TypeName} :
      word.typeName? = some type →
      Reads .parameter n [.identifier name, .symbol .colon, .keyword word]
        [.declaration (n + 2) (some type) (.identifier (n + 1) name) none] (n + 2)
  | entity {n m : Nat} {name : String} {v : List Token} {nodes : List Node} :
      Reads .members n v nodes m →
      Reads .entity n (.keyword .entity :: .identifier name :: .symbol .leftBrace ::
          (v ++ [.symbol .rightBrace])) [.block (m + 1) nodes] (m + 1)
  | membersEnd {n : Nat} : Reads .members n [] [] n
  | membersNext {category : Category} {n m k : Nat} {u v : List Token} {node : Node}
      {nodes : List Node} :
      category ∈ [.variableDeclaration, .functionDeclaration] →
      Reads category n u [node] m → Reads .members m v nodes k →
      Reads .members n (u ++ v) (node :: nodes) k
  | block {n m : Nat} {v : List Token} {nodes : List Node} :
      Reads .commands n v nodes m →
      Reads .block n (.symbol .leftBrace :: (v ++ [.symbol .rightBrace]))
        [.block (m + 1) nodes] (m + 1)
  | commandsEnd {n : Nat} : Reads .commands n [] [] n
  | commandsSkip {n m : Nat} {v : List Token} {nodes : List Node} :
      Reads .commands n v nodes m → Reads .commands n (.symbol .semicolon :: v) nodes m
  | commandsNext {n m k : Nat} {u v : List Token} {node : Node} {nodes : List Node} :
      u ≠ [.symbol .semicolon] → Reads .command n u [node] m → Reads .commands m v nodes k →
      Reads .commands n (u ++ v) (node :: nodes) k
  | skip {n : Nat} : Reads .command n [.symbol .semicolon] [.skip (n + 1)] (n + 1)
  | declared {n m : Nat} {u : List Token} {node : Node} :
      Reads .variableDeclaration n u [node] m → Reads .command n u [node] m
  | blocked {n m : Nat} {u : List Token} {node : Node} :
      Reads .block n u [node] m → Reads .command n u [node] m
  | conditional {n m k : Nat} {e c : List Token} {condition positive : Node} :
      Reads .expression n e [condition] m → Reads .command m c [positive] k →
      Reads .command n (.keyword .ifWord :: .symbol .leftParen :: (e ++ .symbol .rightParen :: c))
        [.conditional (k + 1) condition positive none] (k + 1)
  | conditionalElse {n m k j : Nat} {e c d : List Token} {condition positive negative : Node} :
      Reads .expression n e [condition] m → Reads .command m c [positive] k →
      positive.dangles = false → Reads .command k d [negative] j →
      Reads .command n (.keyword .ifWord :: .symbol .leftParen ::
          (e ++ .symbol .rightParen :: (c ++ .keyword .elseWord :: d)))
        [.conditional (j + 1) condition positive (some negative)] (j + 1)
  | loop {n m k : Nat} {e c : List Token} {condition body : Node} :
      Reads .expression n e [condition] m → Reads .command m c [body] k →
      Reads .command n (.keyword .untilWord :: .symbol .leftParen ::
          (e ++ .symbol .rightParen :: c)) [.loop (k + 1) condition body] (k + 1)
  | resultNone {n : Nat} :
      Reads .command n [.keyword .returnWord, .symbol .semicolon] [.result (n + 1) none] (n + 1)
  | result {n m : Nat} {e : List Token} {value : Node} :
      Reads .expression n e [value] m →
      Reads .command n (.keyword .returnWord :: (e ++ [.symbol .semicolon]))
        [.result (m + 1) (some value)] (m + 1)
  | action {n m : Nat} {word : Keyword} {a : List Token} {arguments : List Node} :
      word ∈ Keyword.actions → Reads (.optionalItems .expression) n a arguments m →
      Reads .command n (.keyword word :: .symbol .leftParen ::
          (a ++ [.symbol .rightParen, .symbol .semicolon]))
        [.action (m + 1) (Token.keyword word).actionName arguments] (m + 1)
  | callCommand {n m : Nat} {name : String} {a : List Token} {arguments : List Node} :
      Reads (.optionalItems .expression) n a arguments m →
      Reads .command n (.identifier name :: .symbol .leftParen ::
          (a ++ [.symbol .rightParen, .symbol .semicolon]))
        [.call (m + 1) name arguments] (m + 1)
  | bareCall {n : Nat} {name : String} :
      Reads .command n [.identifier name, .symbol .semicolon] [.call (n + 1) name []] (n + 1)
  | assignment {n m : Nat} {name : String} {e : List Token} {value : Node} :
      Reads .expression n e [value] m →
      Reads .command n (.identifier name :: .symbol .assign :: (e ++ [.symbol .semicolon]))
        [.assignment (m + 2) (.identifier (m + 1) name) value] (m + 2)
  | elementAssignment {n m k : Nat} {name : String} {i e : List Token} {index value : Node} :
      Reads .expression n i [index] m → Reads .expression m e [value] k →
      Reads .command n (.identifier name :: .symbol .leftBracket ::
          (i ++ .symbol .rightBracket :: .symbol .assign :: (e ++ [.symbol .semicolon])))
        [.assignment (k + 2) (.identifier (k + 1) name) value] (k + 2)
  | operand {l : Level} {n m : Nat} {u : List Token} {node : Node} :
      l ≠ .factor → Reads (.level l.tighter) n u [node] m → Reads (.level l) n u [node] m
  | binary {l : Level} {n m k : Nat} {token : Token} {op : BinaryOp} {u v : List Token}
      {left right : Node} :
      l.op? token = some op → Reads (.level l) n u [left] m →
      Reads (.level l.tighter) m v [right] k →
      Reads (.level l) n (u ++ token :: v) [.binary (k + 1) op left right] (k + 1)
  | signed {n m : Nat} {token : Token} {op : UnaryOp} {u : List Token} {node : Node} :
      token.sign? = some op → Reads .factor n u [node] m →
      Reads .factor n (token :: u) [.unary (m + 1) op node] (m + 1)
  | number {n : Nat} {value : Nat} :
      Reads .factor n [.number value] [.number (n + 1) value] (n + 1)
  | text {n : Nat} {value : String} :
      Reads .factor n [.text value] [.text (n + 1) value] (n + 1)
  | trueFactor {n : Nat} :
      Reads .factor n [.keyword .trueWord] [.boolean (n + 1) true] (n + 1)
  | falseFactor {n : Nat} :
      Reads .factor n [.keyword .falseWord] [.boolean (n + 1) false] (n + 1)
  | group {n m : Nat} {e : List Token} {node : Node} :
      Reads .expression n e [node] m →
      Reads .factor n (.symbol .leftParen :: (e ++ [.symbol .rightParen])) [node] m
  | array {n m : Nat} {a : List Token} {elements : List Node} :
      Reads (.optionalItems .expression) n a elements m →
      Reads .factor n (.symbol .leftBracket :: (a ++ [.symbol .rightBracket]))
        [.array (m + 1) elements] (m + 1)
  | name {n : Nat} {name : String} :
      Reads .factor n [.identifier name] [.identifier (n + 1) name] (n + 1)
  | call {n m : Nat} {name : String} {a : List Token} {arguments : List Node} :
      Reads (.optionalItems .expression) n a arguments m →
      Reads .factor n (.identifier name :: .symbol .leftParen :: (a ++ [.symbol .rightParen]))
        [.call (m + 1) name arguments] (m + 1)
  | access {n m : Nat} {name : String} {i : List Token} {index : Node} :
      Reads .expression n i [index] m →
      Reads .factor n (.identifier name :: .symbol .leftBracket :: (i ++ [.symbol .rightBracket]))
        [.access (m + 2) (.identifier (m + 1) name) index] (m + 2)
  | length {n : Nat} {name : String} :
      Reads .factor n [.keyword .len, .symbol .leftParen, .identifier name, .symbol .rightParen]
        [.length (n + 2) (.identifier (n + 1) name)] (n + 2)
  | noItems {item : Item} {n : Nat} : Reads (.optionalItems item) n [] [] n
  | someItems {item : Item} {n m : Nat} {u : List Token} {nodes : List Node} :
      Reads (.items item) n u nodes m → Reads (.optionalItems item) n u nodes m
  | itemLast {item : Item} {n m : Nat} {u : List Token} {node : Node} :
      Reads item.category n u [node] m → Reads (.items item) n u [node] m
  | itemNext {item : Item} {n m k : Nat} {u v : List Token} {node : Node}
      {nodes : List Node} :
      Reads item.category n u [node] m → Reads (.items item) m v nodes k →
      Reads (.items item) n (u ++ .symbol .comma :: v) (node :: nodes) k

theorem Keyword.mem_types_of_typeName? {word : Keyword} {type : TypeName}
    (h : word.typeName? = some type) : word ∈ Keyword.types := by
  cases word <;> first | decide | cases h

theorem Keyword.typeName?_of_mem_types {word : Keyword} (h : word ∈ Keyword.types) :
    ∃ type, word.typeName? = some type := by
  cases word <;> first | exact ⟨_, rfl⟩ | exact absurd h (by decide)

theorem Level.op?_some {l : Level} {token : Token} {op : BinaryOp} (h : l.op? token = some op) :
    ∃ mark ∈ l.operators, token = .symbol mark := by
  cases token with
  | symbol mark => cases l <;> cases mark <;> first | exact ⟨_, by decide, rfl⟩ | cases h
  | _ => cases l <;> cases h

theorem Level.op?_symbol {l : Level} {mark : Symbol} (h : mark ∈ l.operators) :
    ∃ op, l.op? (.symbol mark) = some op := by
  cases l <;> cases mark <;> first | exact ⟨_, rfl⟩ | exact absurd h (by decide)

namespace Token

variable {token : Token}

theorem terminal_eq_identifier (h : token.terminal = .identifier) :
    ∃ name, token = .identifier name := by
  cases token <;> first | exact ⟨_, rfl⟩ | cases h

theorem terminal_eq_keyword {word : Keyword} (h : token.terminal = .keyword word) :
    token = .keyword word := by
  cases token <;> cases h
  rfl

theorem terminal_eq_symbol {mark : Symbol} (h : token.terminal = .symbol mark) :
    token = .symbol mark := by
  cases token <;> cases h
  rfl

theorem sign?_some {op : UnaryOp} (h : token.sign? = some op) :
    ∃ mark ∈ [Symbol.plus, .minus], token = .symbol mark := by
  cases token with
  | symbol mark => cases mark <;> first | exact ⟨_, by decide, rfl⟩ | cases h
  | _ => cases h

theorem sign?_symbol {mark : Symbol} (h : mark ∈ [Symbol.plus, .minus]) :
    ∃ op, (symbol mark).sign? = some op := by
  cases mark <;> first | exact ⟨_, rfl⟩ | exact absurd h (by decide)

end Token

theorem ReadsType.derives {tokens : List Token} {result : Option TypeName}
    (h : ReadsType tokens result) : DerivesType (tokens.map Token.terminal) := by
  cases h with
  | none => exact .none
  | some ht => exact .some (Keyword.mem_types_of_typeName? ht)

theorem Reads.derives {category : Category} {n m : Nat} {tokens : List Token}
    {nodes : List Node} (h : Reads category n tokens nodes m) :
    Derives category (tokens.map Token.terminal) := by
  induction h with
  | programEnd => exact .programEnd
  | programNext hc _ _ ihu ihv =>
    rw [List.map_append]
    exact .programNext (List.mem_cons_of_mem _ hc) ihu ihv
  | variableDeclaration ht _ ih =>
    simpa [Token.terminal] using .variableDeclaration (Keyword.mem_types_of_typeName? ht) ih
  | functionDeclaration _ hr _ ihp ihb =>
    simpa [Token.terminal] using .functionDeclaration ihp hr.derives ihb
  | parameter ht => exact .parameter (Keyword.mem_types_of_typeName? ht)
  | entity _ ih => simpa [Token.terminal] using .entity ih
  | membersEnd => exact .membersEnd
  | membersNext hc _ _ ihu ihv =>
    rw [List.map_append]
    exact .membersNext hc ihu ihv
  | block _ ih => simpa [Token.terminal] using .block ih
  | commandsEnd => exact .commandsEnd
  | commandsSkip _ ih => exact .commandsNext .skip ih
  | commandsNext _ _ _ ihu ihv =>
    rw [List.map_append]
    exact .commandsNext ihu ihv
  | skip => exact .skip
  | declared _ ih => exact .declared ih
  | blocked _ ih => exact .blocked ih
  | conditional _ _ ihe ihc => simpa [Token.terminal] using .conditional ihe ihc
  | conditionalElse _ _ _ _ ihe ihc ihd =>
    simpa [Token.terminal] using .conditionalElse ihe ihc ihd
  | loop _ _ ihe ihc => simpa [Token.terminal] using .loop ihe ihc
  | resultNone => exact .resultNone
  | result _ ih => simpa [Token.terminal] using .result ih
  | action hw _ ih => simpa [Token.terminal] using .action hw ih
  | callCommand _ ih => simpa [Token.terminal] using .callCommand ih
  | bareCall => exact .bareCall
  | assignment _ ih => simpa [Token.terminal] using .assignment ih
  | elementAssignment _ _ ihi ihe => simpa [Token.terminal] using .elementAssignment ihi ihe
  | operand hl _ ih => exact .operand hl ih
  | binary ho _ _ ihu ihv =>
    obtain ⟨mark, hm, rfl⟩ := Level.op?_some ho
    simpa [Token.terminal] using .binary hm ihu ihv
  | signed hs _ ih =>
    obtain ⟨mark, hm, rfl⟩ := Token.sign?_some hs
    exact .signed hm ih
  | number => exact .number
  | text => exact .text
  | trueFactor => exact .trueFactor
  | falseFactor => exact .falseFactor
  | group _ ih => simpa [Token.terminal] using .group ih
  | array _ ih => simpa [Token.terminal] using .array ih
  | name => exact .name
  | call _ ih => simpa [Token.terminal] using .call ih
  | access _ ih => simpa [Token.terminal] using .access ih
  | length => exact .length
  | noItems => exact .noItems
  | someItems _ ih => exact .someItems ih
  | itemLast _ ih => exact .itemLast ih
  | itemNext _ _ ihu ihv => simpa [Token.terminal] using .itemNext ihu ihv

namespace Token

theorem map_terminal_symbol (tokens : List Token) (mark : Symbol) (w : List Terminal) :
    tokens.map terminal = .symbol mark :: w ↔
      ∃ rest, tokens = .symbol mark :: rest ∧ rest.map terminal = w := by
  rw [List.map_eq_cons_iff]
  constructor
  · rintro ⟨t, rest, rfl, ht, h⟩
    exact ⟨rest, by rw [terminal_eq_symbol ht], h⟩
  · rintro ⟨rest, rfl, h⟩
    exact ⟨_, rest, rfl, rfl, h⟩

theorem map_terminal_keyword (tokens : List Token) (word : Keyword) (w : List Terminal) :
    tokens.map terminal = .keyword word :: w ↔
      ∃ rest, tokens = .keyword word :: rest ∧ rest.map terminal = w := by
  rw [List.map_eq_cons_iff]
  constructor
  · rintro ⟨t, rest, rfl, ht, h⟩
    exact ⟨rest, by rw [terminal_eq_keyword ht], h⟩
  · rintro ⟨rest, rfl, h⟩
    exact ⟨_, rest, rfl, rfl, h⟩

theorem map_terminal_identifier (tokens : List Token) (w : List Terminal) :
    tokens.map terminal = .identifier :: w ↔
      ∃ name rest, tokens = .identifier name :: rest ∧ rest.map terminal = w := by
  rw [List.map_eq_cons_iff]
  constructor
  · rintro ⟨t, rest, rfl, ht, h⟩
    obtain ⟨name, rfl⟩ := terminal_eq_identifier ht
    exact ⟨name, rest, rfl, h⟩
  · rintro ⟨name, rest, rfl, h⟩
    exact ⟨_, rest, rfl, rfl, h⟩

theorem map_terminal_number {tokens : List Token} (h : tokens.map terminal = [.number]) :
    ∃ value, tokens = [.number value] := by
  obtain ⟨t, rfl, ht⟩ := List.map_eq_singleton_iff.1 h
  cases t <;> first | exact ⟨_, rfl⟩ | cases ht

theorem map_terminal_text {tokens : List Token} (h : tokens.map terminal = [.text]) :
    ∃ value, tokens = [.text value] := by
  obtain ⟨t, rfl, ht⟩ := List.map_eq_singleton_iff.1 h
  cases t <;> first | exact ⟨_, rfl⟩ | cases ht

end Token

def Category.single : Category → Bool
  | .program | .members | .commands | .items _ | .optionalItems _ => false
  | _ => true

theorem Item.category_single (item : Item) : item.category.single = true := by
  cases item <;> rfl

theorem Reads.single {category : Category} {n m : Nat} {tokens : List Token} {nodes : List Node}
    (h : Reads category n tokens nodes m) (hc : category.single = true) :
    ∃ node, nodes = [node] := by
  cases h <;> first | exact ⟨_, rfl⟩ | cases hc

theorem Reads.skip_only {n m : Nat} {v : List Token} {nodes : List Node}
    (h : Reads .command n (.symbol .semicolon :: v) nodes m) : v = [] := by
  cases h with
  | skip => rfl
  | declared h => cases h
  | blocked h => cases h

namespace Token

def isName : Token → Bool
  | .identifier _ => true
  | _ => false

def beginsExpression : Token → Bool
  | .number _ | .text _ | .identifier _ => true
  | .keyword word => word ∈ [.trueWord, .falseWord, .len]
  | .symbol mark => mark ∈ [.plus, .minus, .leftParen, .leftBracket]
  | .endOfInput => false

def beginsCommand : Token → Bool
  | .identifier _ => true
  | .keyword word => word ∈ [.ifWord, .untilWord, .returnWord] ++ Keyword.actions
  | .symbol mark => mark ∈ [.semicolon, .leftBrace]
  | _ => false

end Token

/-- The tokens that a category which is never empty can begin with. -/
def Category.begins : Category → Token → Bool
  | .level _, token | .items .expression, token => token.beginsExpression
  | .parameter, token | .items .parameter, token => token.isName
  | .variableDeclaration, token => token.isName
  | .functionDeclaration, token => token = .keyword .func
  | .entity, token => token = .keyword .entity
  | .block, token => token = .symbol .leftBrace
  | .command, token => token.beginsCommand
  | _, _ => false

def Category.nullable : Category → Bool
  | .program | .members | .commands | .optionalItems _ => true
  | _ => false

theorem Reads.begins {category : Category} {n m : Nat} {tokens : List Token} {nodes : List Node}
    (h : Reads category n tokens nodes m) (hc : category.nullable = false) :
    ∃ token rest, tokens = token :: rest ∧ category.begins token = true := by
  induction h with
  | declared h ih =>
    obtain ⟨token, rest, rfl, hb⟩ := ih rfl
    cases token <;> first | exact ⟨_, _, rfl, rfl⟩ | cases hb
  | blocked h ih =>
    obtain ⟨token, rest, rfl, hb⟩ := ih rfl
    exact ⟨_, _, rfl, by rw [of_decide_eq_true hb]; rfl⟩
  | action hw => exact ⟨_, _, rfl, decide_eq_true (List.mem_append_right _ hw)⟩
  | operand _ _ ih => exact ih rfl
  | binary _ _ _ ih =>
    obtain ⟨token, rest, rfl, hb⟩ := ih rfl
    exact ⟨_, _, rfl, hb⟩
  | signed hs =>
    obtain ⟨mark, hm, rfl⟩ := Token.sign?_some hs
    exact ⟨_, _, rfl, decide_eq_true (List.mem_append_left [Symbol.leftParen, .leftBracket] hm)⟩
  | @itemLast item _ _ _ _ _ ih =>
    obtain ⟨token, rest, rfl, hb⟩ := ih (by cases item <;> rfl)
    exact ⟨_, _, rfl, by cases item <;> exact hb⟩
  | @itemNext item _ _ _ _ _ _ _ _ _ ih =>
    obtain ⟨token, rest, rfl, hb⟩ := ih (by cases item <;> rfl)
    exact ⟨_, _, rfl, by cases item <;> exact hb⟩
  | _ => first | exact ⟨_, _, rfl, rfl⟩ | cases hc

/-- A command that ends in a conditional without an `else` can be read with one, which goes to
that conditional. What follows the `else` is read when the numbers before it are known. -/
theorem Reads.absorbs {n m : Nat} {u d : List Token} {node : Node}
    (h : Reads .command n u [node] m) (hd : node.dangles = true)
    (hn : ∀ n, ∃ negative m, Reads .command n d [negative] m) :
    ∃ node m, Reads .command n (u ++ .keyword .elseWord :: d) [node] m := by
  generalize hc : Category.command = category at h
  generalize hl : [node] = nodes at h
  induction h generalizing node with
  | @conditional _ _ k _ _ _ positive he hp _ ihp =>
    cases hf : positive.dangles with
    | true =>
      obtain ⟨node, m, h⟩ := ihp hf rfl rfl
      exact ⟨_, _, by simpa using Reads.conditional he h⟩
    | false =>
      obtain ⟨negative, m, h⟩ := hn k
      exact ⟨_, _, by simpa using Reads.conditionalElse he hp hf h⟩
  | conditionalElse he hp hf hq _ _ ihq =>
    cases hl
    obtain ⟨node, m, h⟩ := ihq (by simpa [Node.dangles] using hd) rfl rfl
    exact ⟨_, _, by simpa using Reads.conditionalElse he hp hf h⟩
  | loop he hb _ ihb =>
    cases hl
    obtain ⟨node, m, h⟩ := ihb (by simpa [Node.dangles] using hd) rfl rfl
    exact ⟨_, _, by simpa using Reads.loop he h⟩
  | declared h => cases h; cases hl; cases hd
  | blocked h => cases h; cases hl; cases hd
  | _ => first | (cases hl; cases hd) | cases hc

theorem Reads.exists_single {category : Category} {n : Nat} {tokens : List Token}
    (hc : category.single = true) (h : ∃ nodes m, Reads category n tokens nodes m) :
    ∃ node m, Reads category n tokens [node] m := by
  obtain ⟨nodes, m, hr⟩ := h
  obtain ⟨node, rfl⟩ := hr.single hc
  exact ⟨node, m, hr⟩

theorem DerivesType.reads {kinds : List Terminal} (h : DerivesType kinds) (tokens : List Token)
    (ht : tokens.map Token.terminal = kinds) : ∃ result, ReadsType tokens result := by
  cases h with
  | none =>
    obtain rfl := List.map_eq_nil_iff.1 ht
    exact ⟨_, .none⟩
  | some hw =>
    simp only [Token.map_terminal_symbol, Token.map_terminal_keyword, List.map_eq_nil_iff] at ht
    obtain ⟨_, rfl, _, rfl, rfl⟩ := ht
    obtain ⟨type, hw⟩ := Keyword.typeName?_of_mem_types hw
    exact ⟨_, .some hw⟩

theorem Derives.reads {category : Category} {kinds : List Terminal}
    (h : Derives category kinds) (tokens : List Token)
    (ht : tokens.map Token.terminal = kinds) (n : Nat) :
    ∃ nodes m, Reads category n tokens nodes m := by
  induction h generalizing tokens n with
  | programEnd | membersEnd | commandsEnd | noItems =>
    obtain rfl := List.map_eq_nil_iff.1 ht
    exact ⟨[], n, by constructor⟩
  | programNext hm _ _ ihu ihv =>
    obtain ⟨u, v, rfl, hu, hv⟩ := List.map_eq_append_iff.1 ht
    obtain ⟨nodes, m, hr⟩ := ihu u hu n
    obtain ⟨rest, k, hs⟩ := ihv v hv m
    obtain ⟨node, rfl⟩ := hr.single (by revert hm; simp; rintro (rfl | rfl | rfl | rfl) <;> rfl)
    rcases List.mem_cons.1 hm with rfl | hm
    · exact ⟨_, _, .programNext (by simp) (.declared hr) hs⟩
    · exact ⟨_, _, .programNext hm hr hs⟩
  | variableDeclaration hw _ ih =>
    simp only [Token.map_terminal_identifier, Token.map_terminal_symbol,
      Token.map_terminal_keyword, List.map_eq_append_iff, List.map_eq_nil_iff] at ht
    obtain ⟨name, _, rfl, _, rfl, _, rfl, _, rfl, e, _, rfl, he, _, rfl, rfl⟩ := ht
    obtain ⟨type, hw⟩ := Keyword.typeName?_of_mem_types hw
    obtain ⟨value, m, hr⟩ := Reads.exists_single rfl (ih e he (n + 1))
    exact ⟨_, _, .variableDeclaration hw hr⟩
  | functionDeclaration _ hr _ ihp ihb =>
    simp only [Token.map_terminal_identifier, Token.map_terminal_symbol,
      Token.map_terminal_keyword, List.map_eq_append_iff] at ht
    obtain ⟨_, rfl, name, _, rfl, _, rfl, p, _, rfl, hp, _, rfl, r, b, rfl, hr', hb⟩ := ht
    obtain ⟨parameters, m, hp⟩ := ihp p hp n
    obtain ⟨result, hr⟩ := hr.reads r hr'
    obtain ⟨body, k, hb⟩ := Reads.exists_single rfl (ihb b hb m)
    exact ⟨_, _, .functionDeclaration hp hr hb⟩
  | parameter hw =>
    simp only [Token.map_terminal_identifier, Token.map_terminal_symbol,
      Token.map_terminal_keyword, List.map_eq_nil_iff] at ht
    obtain ⟨name, _, rfl, _, rfl, _, rfl, rfl⟩ := ht
    obtain ⟨type, hw⟩ := Keyword.typeName?_of_mem_types hw
    exact ⟨_, _, .parameter hw⟩
  | entity _ ih =>
    simp only [Token.map_terminal_identifier, Token.map_terminal_symbol,
      Token.map_terminal_keyword, List.map_eq_append_iff, List.map_eq_nil_iff] at ht
    obtain ⟨_, rfl, name, _, rfl, _, rfl, v, _, rfl, hv, _, rfl, rfl⟩ := ht
    obtain ⟨nodes, m, hr⟩ := ih v hv n
    exact ⟨_, _, .entity hr⟩
  | membersNext hm _ _ ihu ihv =>
    obtain ⟨u, v, rfl, hu, hv⟩ := List.map_eq_append_iff.1 ht
    obtain ⟨nodes, m, hr⟩ := ihu u hu n
    obtain ⟨rest, k, hs⟩ := ihv v hv m
    obtain ⟨node, rfl⟩ := hr.single (by revert hm; simp; rintro (rfl | rfl) <;> rfl)
    exact ⟨_, _, .membersNext hm hr hs⟩
  | block _ ih =>
    simp only [Token.map_terminal_symbol, List.map_eq_append_iff, List.map_eq_nil_iff] at ht
    obtain ⟨_, rfl, v, _, rfl, hv, _, rfl, rfl⟩ := ht
    obtain ⟨nodes, m, hr⟩ := ih v hv n
    exact ⟨_, _, .block hr⟩
  | commandsNext _ _ ihu ihv =>
    obtain ⟨u, v, rfl, hu, hv⟩ := List.map_eq_append_iff.1 ht
    by_cases hs : u = [.symbol .semicolon]
    · subst hs
      obtain ⟨nodes, m, hr⟩ := ihv v hv n
      exact ⟨_, _, .commandsSkip hr⟩
    · obtain ⟨node, m, hr⟩ := Reads.exists_single rfl (ihu u hu n)
      obtain ⟨rest, k, hr'⟩ := ihv v hv m
      exact ⟨_, _, .commandsNext hs hr hr'⟩
  | skip =>
    simp only [Token.map_terminal_symbol, List.map_eq_nil_iff] at ht
    obtain ⟨_, rfl, rfl⟩ := ht
    exact ⟨_, _, .skip⟩
  | declared _ ih =>
    obtain ⟨node, m, hr⟩ := Reads.exists_single rfl (ih tokens ht n)
    exact ⟨_, _, .declared hr⟩
  | blocked _ ih =>
    obtain ⟨node, m, hr⟩ := Reads.exists_single rfl (ih tokens ht n)
    exact ⟨_, _, .blocked hr⟩
  | conditional _ _ ihe ihc =>
    simp only [Token.map_terminal_symbol, Token.map_terminal_keyword,
      List.map_eq_append_iff] at ht
    obtain ⟨_, rfl, _, rfl, e, _, rfl, he, c, rfl, hc⟩ := ht
    obtain ⟨condition, m, he⟩ := Reads.exists_single rfl (ihe e he n)
    obtain ⟨positive, k, hc⟩ := Reads.exists_single rfl (ihc c hc m)
    exact ⟨_, _, .conditional he hc⟩
  | conditionalElse _ _ _ ihe ihc ihd =>
    simp only [Token.map_terminal_symbol, Token.map_terminal_keyword,
      List.map_eq_append_iff] at ht
    obtain ⟨_, rfl, _, rfl, e, _, rfl, he, _, rfl, c, _, rfl, hc, d, rfl, hd⟩ := ht
    obtain ⟨condition, m, he⟩ := Reads.exists_single rfl (ihe e he n)
    obtain ⟨positive, k, hc⟩ := Reads.exists_single rfl (ihc c hc m)
    have hn (n : Nat) := Reads.exists_single rfl (ihd d hd n)
    -- An `else` that the derivation gives to this conditional may be nearer to an inner one.
    cases hf : positive.dangles with
    | true =>
      obtain ⟨node, j, hr⟩ := hc.absorbs hf hn
      exact ⟨_, _, .conditional he hr⟩
    | false =>
      obtain ⟨negative, j, hr⟩ := hn k
      exact ⟨_, _, .conditionalElse he hc hf hr⟩
  | loop _ _ ihe ihc =>
    simp only [Token.map_terminal_symbol, Token.map_terminal_keyword,
      List.map_eq_append_iff] at ht
    obtain ⟨_, rfl, _, rfl, e, _, rfl, he, c, rfl, hc⟩ := ht
    obtain ⟨condition, m, he⟩ := Reads.exists_single rfl (ihe e he n)
    obtain ⟨body, k, hc⟩ := Reads.exists_single rfl (ihc c hc m)
    exact ⟨_, _, .loop he hc⟩
  | resultNone =>
    simp only [Token.map_terminal_symbol, Token.map_terminal_keyword, List.map_eq_nil_iff] at ht
    obtain ⟨_, rfl, _, rfl, rfl⟩ := ht
    exact ⟨_, _, .resultNone⟩
  | result _ ih =>
    simp only [Token.map_terminal_symbol, Token.map_terminal_keyword, List.map_eq_append_iff,
      List.map_eq_nil_iff] at ht
    obtain ⟨_, rfl, e, _, rfl, he, _, rfl, rfl⟩ := ht
    obtain ⟨value, m, hr⟩ := Reads.exists_single rfl (ih e he n)
    exact ⟨_, _, .result hr⟩
  | action hw _ ih =>
    simp only [Token.map_terminal_symbol, Token.map_terminal_keyword, List.map_eq_append_iff,
      List.map_eq_nil_iff] at ht
    obtain ⟨_, rfl, _, rfl, a, _, rfl, ha, _, rfl, _, rfl, rfl⟩ := ht
    obtain ⟨arguments, m, hr⟩ := ih a ha n
    exact ⟨_, _, .action hw hr⟩
  | callCommand _ ih =>
    simp only [Token.map_terminal_identifier, Token.map_terminal_symbol, List.map_eq_append_iff,
      List.map_eq_nil_iff] at ht
    obtain ⟨name, _, rfl, _, rfl, a, _, rfl, ha, _, rfl, _, rfl, rfl⟩ := ht
    obtain ⟨arguments, m, hr⟩ := ih a ha n
    exact ⟨_, _, .callCommand hr⟩
  | bareCall =>
    simp only [Token.map_terminal_identifier, Token.map_terminal_symbol,
      List.map_eq_nil_iff] at ht
    obtain ⟨name, _, rfl, _, rfl, rfl⟩ := ht
    exact ⟨_, _, .bareCall⟩
  | assignment _ ih =>
    simp only [Token.map_terminal_identifier, Token.map_terminal_symbol, List.map_eq_append_iff,
      List.map_eq_nil_iff] at ht
    obtain ⟨name, _, rfl, _, rfl, e, _, rfl, he, _, rfl, rfl⟩ := ht
    obtain ⟨value, m, hr⟩ := Reads.exists_single rfl (ih e he n)
    exact ⟨_, _, .assignment hr⟩
  | elementAssignment _ _ ihi ihe =>
    simp only [Token.map_terminal_identifier, Token.map_terminal_symbol, List.map_eq_append_iff,
      List.map_eq_nil_iff] at ht
    obtain ⟨name, _, rfl, _, rfl, i, _, rfl, hi, _, rfl, _, rfl, e, _, rfl, he, _, rfl, rfl⟩ := ht
    obtain ⟨index, m, hi⟩ := Reads.exists_single rfl (ihi i hi n)
    obtain ⟨value, k, he⟩ := Reads.exists_single rfl (ihe e he m)
    exact ⟨_, _, .elementAssignment hi he⟩
  | operand hl _ ih =>
    obtain ⟨node, m, hr⟩ := Reads.exists_single rfl (ih tokens ht n)
    exact ⟨_, _, .operand hl hr⟩
  | binary hm _ _ ihu ihv =>
    simp only [Token.map_terminal_symbol, List.map_eq_append_iff] at ht
    obtain ⟨u, _, rfl, hu, v, rfl, hv⟩ := ht
    obtain ⟨op, ho⟩ := Level.op?_symbol hm
    obtain ⟨left, m, hu⟩ := Reads.exists_single rfl (ihu u hu n)
    obtain ⟨right, k, hv⟩ := Reads.exists_single rfl (ihv v hv m)
    exact ⟨_, _, .binary ho hu hv⟩
  | signed hm _ ih =>
    simp only [Token.map_terminal_symbol] at ht
    obtain ⟨u, rfl, hu⟩ := ht
    obtain ⟨op, ho⟩ := Token.sign?_symbol hm
    obtain ⟨node, m, hr⟩ := Reads.exists_single rfl (ih u hu n)
    exact ⟨_, _, .signed ho hr⟩
  | number =>
    obtain ⟨value, rfl⟩ := Token.map_terminal_number ht
    exact ⟨_, _, .number⟩
  | text =>
    obtain ⟨value, rfl⟩ := Token.map_terminal_text ht
    exact ⟨_, _, .text⟩
  | trueFactor =>
    simp only [Token.map_terminal_keyword, List.map_eq_nil_iff] at ht
    obtain ⟨_, rfl, rfl⟩ := ht
    exact ⟨_, _, .trueFactor⟩
  | falseFactor =>
    simp only [Token.map_terminal_keyword, List.map_eq_nil_iff] at ht
    obtain ⟨_, rfl, rfl⟩ := ht
    exact ⟨_, _, .falseFactor⟩
  | group _ ih =>
    simp only [Token.map_terminal_symbol, List.map_eq_append_iff, List.map_eq_nil_iff] at ht
    obtain ⟨_, rfl, e, _, rfl, he, _, rfl, rfl⟩ := ht
    obtain ⟨node, m, hr⟩ := Reads.exists_single rfl (ih e he n)
    exact ⟨_, _, .group hr⟩
  | array _ ih =>
    simp only [Token.map_terminal_symbol, List.map_eq_append_iff, List.map_eq_nil_iff] at ht
    obtain ⟨_, rfl, a, _, rfl, ha, _, rfl, rfl⟩ := ht
    obtain ⟨elements, m, hr⟩ := ih a ha n
    exact ⟨_, _, .array hr⟩
  | name =>
    simp only [Token.map_terminal_identifier, List.map_eq_nil_iff] at ht
    obtain ⟨name, _, rfl, rfl⟩ := ht
    exact ⟨_, _, .name⟩
  | call _ ih =>
    simp only [Token.map_terminal_identifier, Token.map_terminal_symbol, List.map_eq_append_iff,
      List.map_eq_nil_iff] at ht
    obtain ⟨name, _, rfl, _, rfl, a, _, rfl, ha, _, rfl, rfl⟩ := ht
    obtain ⟨arguments, m, hr⟩ := ih a ha n
    exact ⟨_, _, .call hr⟩
  | access _ ih =>
    simp only [Token.map_terminal_identifier, Token.map_terminal_symbol, List.map_eq_append_iff,
      List.map_eq_nil_iff] at ht
    obtain ⟨name, _, rfl, _, rfl, i, _, rfl, hi, _, rfl, rfl⟩ := ht
    obtain ⟨index, m, hr⟩ := Reads.exists_single rfl (ih i hi n)
    exact ⟨_, _, .access hr⟩
  | length =>
    simp only [Token.map_terminal_identifier, Token.map_terminal_symbol,
      Token.map_terminal_keyword, List.map_eq_nil_iff] at ht
    obtain ⟨_, rfl, _, rfl, name, _, rfl, _, rfl, rfl⟩ := ht
    exact ⟨_, _, .length⟩
  | someItems _ ih =>
    obtain ⟨nodes, m, hr⟩ := ih tokens ht n
    exact ⟨_, _, .someItems hr⟩
  | itemLast _ ih =>
    obtain ⟨node, m, hr⟩ := Reads.exists_single (Item.category_single _) (ih tokens ht n)
    exact ⟨_, _, .itemLast hr⟩
  | itemNext _ _ ihu ihv =>
    simp only [Token.map_terminal_symbol, List.map_eq_append_iff] at ht
    obtain ⟨u, _, rfl, hu, v, rfl, hv⟩ := ht
    obtain ⟨node, m, hu⟩ := Reads.exists_single (Item.category_single _) (ihu u hu n)
    obtain ⟨nodes, k, hv⟩ := ihv v hv m
    exact ⟨_, _, .itemNext hu hv⟩

end LevelScript

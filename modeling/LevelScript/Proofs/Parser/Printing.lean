import LevelScript.Proofs.Parser.Language
import LevelScript.Proofs.Token.Writing
import Mathlib.Data.List.Chain

set_option autoImplicit false

namespace LevelScript

/-- An expression as it can be printed. A `group` is a pair of parentheses that need not be there.
-/
inductive Expression where
  | number (value : Nat)
  | boolean (value : Bool)
  | text (value : String)
  | identifier (name : String)
  | call (name : String) (arguments : List Expression)
  | length (name : String)
  | access (name : String) (index : Expression)
  | array (elements : List Expression)
  | unary (op : UnaryOp) (operand : Expression)
  | binary (op : BinaryOp) (left right : Expression)
  | group (inner : Expression)

def UnaryOp.token? : UnaryOp → Option Token
  | .plus => some (.symbol .plus)
  | .minus => some (.symbol .minus)
  | .not | .other _ => none

def BinaryOp.level : BinaryOp → Level
  | .connective _ => .logical
  | .equal | .notEqual | .order _ => .relation
  | .arithmetic .add | .arithmetic .subtract => .sum
  | .arithmetic .multiply | .arithmetic .divide => .term
  | .other _ => .logical

def BinaryOp.token? : BinaryOp → Option Token
  | .arithmetic .add => some (.symbol .plus)
  | .arithmetic .subtract => some (.symbol .minus)
  | .arithmetic .multiply => some (.symbol .times)
  | .arithmetic .divide => some (.symbol .divide)
  | .equal => some (.symbol .equal)
  | .notEqual => some (.symbol .notEqual)
  | .order .less => some (.symbol .less)
  | .order .greater => some (.symbol .greater)
  | .order .atMost => some (.symbol .atMost)
  | .order .atLeast => some (.symbol .atLeast)
  | .connective .and => some (.symbol .and)
  | .connective .or => some (.symbol .or)
  | .other _ => none

namespace Expression

def level : Expression → Level
  | .binary op _ _ => op.level
  | _ => .factor

def parenthesized (tokens : List Token) : List Token :=
  .symbol .leftParen :: (tokens ++ [.symbol .rightParen])

/-- Tokens of the level `own` at a place that asks for the level `place`. -/
def placed (place own : Level) (tokens : List Token) : List Token :=
  if own ∈ place.inner then tokens else parenthesized tokens

mutual

def tokens : Expression → List Token
  | .number value => [.number value]
  | .boolean true => [.keyword .trueWord]
  | .boolean false => [.keyword .falseWord]
  | .text value => [.text value]
  | .identifier name => [.identifier name]
  | .call name arguments => .identifier name :: parenthesized (itemTokens arguments)
  | .length name => .keyword .len :: parenthesized [.identifier name]
  | .access name index =>
    .identifier name :: .symbol .leftBracket :: (index.tokens ++ [.symbol .rightBracket])
  | .array elements => .symbol .leftBracket :: (itemTokens elements ++ [.symbol .rightBracket])
  | .unary op operand => op.token?.toList ++ placed .factor operand.level operand.tokens
  | .binary op left right =>
    placed op.level left.level left.tokens ++
      (op.token?.toList ++ placed op.level.tighter right.level right.tokens)
  | .group inner => parenthesized inner.tokens

def itemTokens : List Expression → List Token
  | [] => []
  | [item] => item.tokens
  | item :: items => item.tokens ++ .symbol .comma :: itemTokens items

end

mutual

def tree : Expression → Node
  | .number value => .number 0 value
  | .boolean value => .boolean 0 value
  | .text value => .text 0 value
  | .identifier name => .identifier 0 name
  | .call name arguments => .call 0 name (trees arguments)
  | .length name => .length 0 (.identifier 0 name)
  | .access name index => .access 0 (.identifier 0 name) index.tree
  | .array elements => .array 0 (trees elements)
  | .unary op operand => .unary 0 op operand.tree
  | .binary op left right => .binary 0 op left.tree right.tree
  | .group inner => inner.tree

def trees : List Expression → List Node
  | [] => []
  | item :: items => item.tree :: trees items

end

mutual

/-- Its names, numbers, texts and operators are such that a source can have them. -/
def valid : Expression → Bool
  | .number value => (Token.number value).writable
  | .boolean _ => true
  | .text value => (Token.text value).writable
  | .identifier name => (Token.identifier name).writable
  | .call name arguments => (Token.identifier name).writable && allValid arguments
  | .length name => (Token.identifier name).writable
  | .access name index => (Token.identifier name).writable && index.valid
  | .array elements => allValid elements
  | .unary op operand => op.token?.isSome && operand.valid
  | .binary op left right => op.token?.isSome && left.valid && right.valid
  | .group inner => inner.valid

def allValid : List Expression → Bool
  | [] => true
  | item :: items => item.valid && allValid items

end

end Expression

namespace Node

mutual

def unnumbered : Node → Node
  | .blank _ => .blank 0
  | .number _ value => .number 0 value
  | .boolean _ value => .boolean 0 value
  | .text _ value => .text 0 value
  | .literal _ kind value => .literal 0 kind value
  | .identifier _ name => .identifier 0 name
  | .binary _ op left right => .binary 0 op left.unnumbered right.unnumbered
  | .unary _ op operand => .unary 0 op operand.unnumbered
  | .array _ elements => .array 0 (allUnnumbered elements)
  | .access _ accessed index => .access 0 accessed.unnumbered index.unnumbered
  | .length _ measured => .length 0 measured.unnumbered
  | .call _ name arguments => .call 0 name (allUnnumbered arguments)
  | .assignment _ target value => .assignment 0 target.unnumbered value.unnumbered
  | .declaration _ type label value => .declaration 0 type label.unnumbered (optionUnnumbered value)
  | .function _ name type parts => .function 0 name type (allUnnumbered parts)
  | .block _ commands => .block 0 (allUnnumbered commands)
  | .skip _ => .skip 0
  | .conditional _ condition positive negative =>
    .conditional 0 condition.unnumbered positive.unnumbered (optionUnnumbered negative)
  | .loop _ condition body => .loop 0 condition.unnumbered body.unnumbered
  | .result _ value => .result 0 (optionUnnumbered value)
  | .action _ name arguments => .action 0 name (allUnnumbered arguments)

def allUnnumbered : List Node → List Node
  | [] => []
  | node :: nodes => node.unnumbered :: allUnnumbered nodes

def optionUnnumbered : Option Node → Option Node
  | none => none
  | some node => some node.unnumbered

end

end Node

theorem BinaryOp.op?_token {op : BinaryOp} {token : Token} (h : op.token? = some token) :
    op.level.op? token = some op := by
  cases op with
  | arithmetic op => cases op <;> cases h <;> rfl
  | order op => cases op <;> cases h <;> rfl
  | connective op => cases op <;> cases h <;> rfl
  | other => cases h
  | _ => cases h; rfl

theorem UnaryOp.sign?_token {op : UnaryOp} {token : Token} (h : op.token? = some token) :
    token.sign? = some op := by
  cases op <;> cases h <;> rfl

theorem Reads.loosen {l k : Level} {n m : Nat} {tokens : List Token} {node : Node}
    (h : Reads (.level k) n tokens [node] m) (hk : k ∈ l.inner) :
    Reads (.level l) n tokens [node] m := by
  cases l <;> cases k <;> simp [Level.inner] at hk <;>
    first
    | exact h
    | exact .operand (by decide) h
    | exact .operand (by decide) (.operand (by decide) h)
    | exact .operand (by decide) (.operand (by decide) (.operand (by decide) h))
    | exact .operand (by decide) (.operand (by decide) (.operand (by decide)
        (.operand (by decide) h)))

namespace Expression

theorem reads_placed {place own : Level} {n m : Nat} {tokens : List Token} {node : Node}
    (h : Reads (.level own) n tokens [node] m) :
    Reads (.level place) n (placed place own tokens) [node] m := by
  unfold placed
  split
  next hown => exact h.loosen hown
  next =>
    exact (Reads.group (h.loosen (by cases own <;> decide))).loosen (by cases place <;> decide)

mutual

theorem reads : (e : Expression) → e.valid = true → (n : Nat) →
    ∃ node m, Reads (.level e.level) n e.tokens [node] m ∧ node.unnumbered = e.tree
  | .number value, _, n => ⟨_, _, .number, rfl⟩
  | .boolean true, _, n => ⟨_, _, .trueFactor, rfl⟩
  | .boolean false, _, n => ⟨_, _, .falseFactor, rfl⟩
  | .text value, _, n => ⟨_, _, .text, rfl⟩
  | .identifier name, _, n => ⟨_, _, .name, rfl⟩
  | .call name arguments, h, n => by
    simp only [valid, Bool.and_eq_true] at h
    obtain ⟨nodes, m, hr, ht⟩ := reads_items arguments h.2 n
    exact ⟨_, _, .call hr, by simp [Node.unnumbered, tree, ht]⟩
  | .length name, _, n => ⟨_, _, .length, rfl⟩
  | .access name index, h, n => by
    simp only [valid, Bool.and_eq_true] at h
    obtain ⟨node, m, hr, ht⟩ := reads index h.2 n
    exact ⟨_, _, .access (hr.loosen (by cases index.level <;> decide)),
      by simp [Node.unnumbered, tree, ht]⟩
  | .array elements, h, n => by
    obtain ⟨nodes, m, hr, ht⟩ := reads_items elements h n
    exact ⟨_, _, .array hr, by simp [Node.unnumbered, tree, ht]⟩
  | .unary op operand, h, n => by
    simp only [valid, Bool.and_eq_true] at h
    obtain ⟨token, hop⟩ := Option.isSome_iff_exists.1 h.1
    obtain ⟨node, m, hr, ht⟩ := reads operand h.2 n
    refine ⟨.unary (m + 1) op node, m + 1, ?_, ?_⟩
    · rw [tokens, hop]
      exact .signed (UnaryOp.sign?_token hop) (reads_placed hr)
    · simp [Node.unnumbered, tree, ht]
  | .binary op left right, h, n => by
    simp only [valid, Bool.and_eq_true] at h
    obtain ⟨token, hop⟩ := Option.isSome_iff_exists.1 h.1.1
    obtain ⟨l, k, hl, htl⟩ := reads left h.1.2 n
    obtain ⟨r, m, hr, htr⟩ := reads right h.2 k
    refine ⟨.binary (m + 1) op l r, m + 1, ?_, ?_⟩
    · rw [tokens, hop]
      exact .binary (BinaryOp.op?_token hop) (reads_placed hl) (reads_placed hr)
    · simp [Node.unnumbered, tree, htl, htr]
  | .group inner, h, n => by
    obtain ⟨node, m, hr, ht⟩ := reads inner h n
    exact ⟨node, m, .group (hr.loosen (by cases inner.level <;> decide)), ht⟩

theorem reads_items : (items : List Expression) → allValid items = true → (n : Nat) →
    ∃ nodes m, Reads (.optionalItems .expression) n (itemTokens items) nodes m ∧
      Node.allUnnumbered nodes = trees items
  | [], _, n => ⟨[], n, .noItems, rfl⟩
  | [item], h, n => by
    simp only [allValid, Bool.and_eq_true] at h
    obtain ⟨node, m, hr, ht⟩ := reads item h.1 n
    exact ⟨[node], m, .someItems (.itemLast (hr.loosen (by cases item.level <;> decide))),
      by simp [Node.allUnnumbered, trees, ht]⟩
  | item :: next :: items, h, n => by
    rw [allValid, Bool.and_eq_true] at h
    obtain ⟨node, k, hr, ht⟩ := reads item h.1 n
    obtain ⟨nodes, m, hs, hts⟩ := reads_items (next :: items) h.2 k
    have hs : Reads (.items .expression) k (itemTokens (next :: items)) nodes m := by
      generalize itemTokens (next :: items) = tokens at hs
      cases hs with
      | noItems => simp [Node.allUnnumbered, trees] at hts
      | someItems hs => exact hs
    exact ⟨node :: nodes, m,
      .someItems (.itemNext (hr.loosen (by cases item.level <;> decide)) hs),
      by rw [Node.allUnnumbered, trees, ht, hts]⟩

end

end Expression

def Token.endsExpression : Token → Bool
  | .identifier _ | .number _ | .text _ | .keyword _ => true
  | .symbol mark => mark ∈ [.rightParen, .rightBracket]
  | .endOfInput => false

theorem Token.joins_symbol_left (mark : Symbol) {token : Token}
    (h : token.beginsExpression = true) : (symbol mark).joins token = false := by
  cases token with
  | symbol after => cases after <;> first | (simp [joins]; done) | cases h
  | _ => rfl

theorem Token.joins_symbol_right {token : Token} (mark : Symbol)
    (h : token.endsExpression = true) : token.joins (.symbol mark) = false := by
  cases token with
  | symbol before => cases before <;> first | (simp [joins]; done) | cases h
  | _ => rfl

/-- Tokens that can be written without blanks, and that stand like an expression among others. -/
structure Phrase (tokens : List Token) : Prop where
  writable : ∀ token ∈ tokens, token.writable = true
  apart : tokens.IsChain fun before after => before.joins after = false
  nonempty : tokens ≠ []
  first : ∀ token ∈ tokens.head?, token.beginsExpression = true
  last : ∀ token ∈ tokens.getLast?, token.endsExpression = true

namespace Phrase

variable {u v : List Token}

theorem single {token : Token} (hw : token.writable = true)
    (hb : token.beginsExpression = true) (he : token.endsExpression = true) : Phrase [token] :=
  ⟨by simpa using hw, .singleton _, by simp, by simpa using hb, by simpa using he⟩

theorem infixed (hu : Phrase u) (hv : Phrase v) (mark : Symbol) :
    Phrase (u ++ .symbol mark :: v) where
  writable token h := by
    simp only [List.mem_append, List.mem_cons] at h
    rcases h with h | rfl | h
    · exact hu.writable token h
    · rfl
    · exact hv.writable token h
  apart := by
    rw [List.isChain_append, List.isChain_cons]
    refine ⟨hu.apart, ⟨fun token h => ?_, hv.apart⟩, fun token h after hafter => ?_⟩
    · exact Token.joins_symbol_left mark (hv.first token h)
    · cases hafter
      exact Token.joins_symbol_right mark (hu.last token h)
  nonempty := by simp
  first token h := by
    rw [List.head?_append_of_ne_nil _ hu.nonempty] at h
    exact hu.first token h
  last token h := by
    rw [List.getLast?_append_of_ne_nil _ (by simp), List.getLast?_cons_of_ne_nil hv.nonempty] at h
    exact hv.last token h

theorem signed (hv : Phrase v) {mark : Symbol} (hm : mark ∈ [Symbol.plus, .minus]) :
    Phrase (.symbol mark :: v) where
  writable token h := by
    rcases List.mem_cons.1 h with rfl | h
    · rfl
    · exact hv.writable token h
  apart := List.isChain_cons.2
    ⟨fun token h => Token.joins_symbol_left mark (hv.first token h), hv.apart⟩
  nonempty := by simp
  first token h := by
    cases h
    revert hm
    cases mark <;> decide
  last token h := by
    rw [List.getLast?_cons_of_ne_nil hv.nonempty] at h
    exact hv.last token h

theorem bracketed (hv : v = [] ∨ Phrase v) {opening closing : Symbol}
    (ho : opening ∈ [Symbol.leftParen, .leftBracket])
    (hc : closing ∈ [Symbol.rightParen, .rightBracket]) :
    Phrase (.symbol opening :: (v ++ [.symbol closing])) where
  writable token h := by
    simp only [List.mem_cons, List.mem_append, List.not_mem_nil, or_false] at h
    rcases h with rfl | h | rfl
    · rfl
    · rcases hv with rfl | hv
      · cases h
      · exact hv.writable token h
    · rfl
  apart := by
    rcases hv with rfl | hv
    · simp only [List.mem_cons, List.not_mem_nil, or_false] at hc
      rw [List.nil_append, List.isChain_pair]
      rcases hc with rfl | rfl <;> simp [Token.joins]
    · rw [List.isChain_cons, List.isChain_append]
      refine ⟨fun token h => ?_, hv.apart, .singleton _, fun token h after hafter => ?_⟩
      · rw [List.head?_append_of_ne_nil _ hv.nonempty] at h
        exact Token.joins_symbol_left opening (hv.first token h)
      · cases hafter
        exact Token.joins_symbol_right closing (hv.last token h)
  nonempty := by simp
  first token h := by
    cases h
    revert ho
    cases opening <;> decide
  last token h := by
    rw [← List.cons_append, List.getLast?_append_of_ne_nil _ (by simp)] at h
    cases h
    exact decide_eq_true hc

theorem applied {word : Token} {opening : Symbol} (hv : Phrase (.symbol opening :: v))
    (hw : word.writable = true) (hb : word.beginsExpression = true)
    (he : word.endsExpression = true) : Phrase (word :: .symbol opening :: v) where
  writable token h := by
    rcases List.mem_cons.1 h with rfl | h
    · exact hw
    · exact hv.writable token h
  apart := List.isChain_cons.2
    ⟨fun token h => by cases h; exact Token.joins_symbol_right opening he, hv.apart⟩
  nonempty := by simp
  first token h := by cases h; exact hb
  last token h := hv.last token (by simpa using h)

end Phrase

namespace Expression

theorem phrase_placed {place own : Level} {tokens : List Token} (h : Phrase tokens) :
    Phrase (placed place own tokens) := by
  unfold placed
  split
  · exact h
  · exact .bracketed (.inr h) (by decide) (by decide)

mutual

theorem phrase : (e : Expression) → e.valid = true → Phrase e.tokens
  | .number value, h => .single h rfl rfl
  | .boolean true, _ => .single rfl rfl rfl
  | .boolean false, _ => .single rfl rfl rfl
  | .text value, h => .single h rfl rfl
  | .identifier name, h => .single h rfl rfl
  | .call name arguments, h => by
    simp only [valid, Bool.and_eq_true] at h
    have hitems := (phrase_items arguments h.2).imp_left (congrArg itemTokens)
    exact .applied (.bracketed hitems (by decide) (by decide)) h.1 rfl rfl
  | .length name, h =>
    .applied (.bracketed (.inr (.single h rfl rfl)) (by decide) (by decide)) rfl rfl rfl
  | .access name index, h => by
    simp only [valid, Bool.and_eq_true] at h
    exact .applied (.bracketed (.inr (phrase index h.2)) (by decide) (by decide)) h.1 rfl rfl
  | .array elements, h =>
    .bracketed ((phrase_items elements h).imp_left (congrArg itemTokens)) (by decide) (by decide)
  | .unary op operand, h => by
    simp only [valid, Bool.and_eq_true] at h
    obtain ⟨token, hop⟩ := Option.isSome_iff_exists.1 h.1
    obtain ⟨mark, hm, rfl⟩ := Token.sign?_some (UnaryOp.sign?_token hop)
    rw [tokens, hop]
    exact .signed (phrase_placed (phrase operand h.2)) hm
  | .binary op left right, h => by
    simp only [valid, Bool.and_eq_true] at h
    obtain ⟨token, hop⟩ := Option.isSome_iff_exists.1 h.1.1
    obtain ⟨mark, _, rfl⟩ := Level.op?_some (BinaryOp.op?_token hop)
    rw [tokens, hop]
    exact .infixed (phrase_placed (phrase left h.1.2)) (phrase_placed (phrase right h.2)) mark
  | .group inner, h => .bracketed (.inr (phrase inner h)) (by decide) (by decide)

theorem phrase_items : (items : List Expression) → allValid items = true →
    items = [] ∨ Phrase (itemTokens items)
  | [], _ => .inl rfl
  | [item], h => by
    simp only [allValid, Bool.and_eq_true] at h
    exact .inr (phrase item h.1)
  | item :: next :: items, h => by
    rw [allValid, Bool.and_eq_true] at h
    rcases phrase_items (next :: items) h.2 with hnil | hs
    · cases hnil
    · exact .inr (.infixed (phrase item h.1) hs .comma)

end

end Expression

/-- After a token that was written, neither a blank nor the next token goes on with it. -/
theorem Written.extendedBy {token : Token} {tokens : List Token} {text rest : List Char}
    (h : Written tokens text) (hw : ∀ t ∈ tokens, t.writable = true)
    (ha : (token :: tokens).IsChain fun before after => before.joins after = false)
    (hr : ∀ t ∈ (token :: tokens).getLast?, ∀ c ∈ rest.head?, t.extendedBy c = false) :
    ∀ c ∈ (text ++ rest).head?, token.extendedBy c = false := by
  intro c hc
  cases h with
  | nil => exact hr token rfl c hc
  | blank hb =>
    cases hc
    exact token.extendedBy_blank hb
  | @token next =>
    obtain ⟨d, tail, hd, _⟩ := Token.chars_first (hw next (by simp))
    have hj := (List.isChain_cons.1 ha).1 next rfl
    rw [hd] at hc
    cases hc
    exact Token.extendedBy_first (hw next (by simp)) hj hd

theorem Written.passes {tokens : List Token} {text : List Char} (h : Written tokens text)
    (hw : ∀ t ∈ tokens, t.writable = true)
    (ha : tokens.IsChain fun before after => before.joins after = false) {rest : List Char}
    (hr : ∀ t ∈ tokens.getLast?, ∀ c ∈ rest.head?, t.extendedBy c = false)
    {d : Nat → Cursor} (hd : ∀ q, Cursor.ofStream (.scan q rest) = .ok (d q)) (p : Nat) :
    ∃ c q, Cursor.ofStream (.scan p (text ++ rest)) = .ok c ∧ c.Passes tokens (d q) := by
  induction h generalizing p with
  | nil => exact ⟨d p, p, hd p, rfl⟩
  | blank hb _ ih =>
    rw [List.cons_append, TokenStream.scan_blank p hb]
    exact ih hw ha hr (p + 1)
  | @token token tokens text h ih =>
    have hlast (t : Token) (ht : t ∈ tokens.getLast?) : t ∈ (token :: tokens).getLast? := by
      cases tokens with
      | nil => cases ht
      | cons => exact ht
    obtain ⟨e, q, he, hp⟩ := ih (fun t ht => hw t (List.mem_cons_of_mem _ ht))
      (List.isChain_cons.1 ha).2 (fun t ht => hr t (hlast t ht)) (p + token.chars.length)
    rw [List.append_assoc, TokenStream.scan_chars p (hw token List.mem_cons_self)
      (h.extendedBy (fun t ht => hw t (List.mem_cons_of_mem _ ht)) ha hr)]
    exact ⟨_, q, rfl, .cons rfl (Cursor.next?_eq_some.2 he) hp⟩

theorem Written.words {tokens : List Token} {text : List Char} (h : Written tokens text)
    (hw : ∀ t ∈ tokens, t.writable = true)
    (ha : tokens.IsChain fun before after => before.joins after = false) :
    (TokenStream.ofSource (String.ofList text)).fault? = none ∧
      (TokenStream.ofSource (String.ofList text)).words = tokens := by
  have hfinish (q : Nat) : Cursor.ofStream (.scan q []) = .ok ⟨.endOfInput, q, .finish q⟩ := by
    rw [TokenStream.scan]
    rfl
  have hlast (t : Token) : t ∈ tokens.getLast? → ∀ c ∈ ([] : List Char).head?,
      t.extendedBy c = false := by
    intro _ c hc
    cases hc
  obtain ⟨c, q, hc, hp⟩ := h.passes hw ha hlast hfinish 0
  have hend : Token.endOfInput ∉ tokens := fun hmem => Bool.noConfusion (hw _ hmem)
  rw [List.append_nil] at hc
  rw [TokenStream.ofSource, String.toList_ofList]
  exact hp.words_eq hc rfl hend (TokenStream.end_notMem_scan 0 text)

/-- Printed, written in any layout and followed by a semicolon, an expression is parsed to its own
tree, and the semicolon is the next token. -/
theorem expression_parses_printed (e : Expression) (he : e.valid = true) (text rest : List Char)
    (ht : Written e.tokens text) (built : Nat) :
    ∃ node c m, Construct.expression.parse built (String.ofList (text ++ ';' :: rest)) =
        .ok (node, ⟨c, m⟩) ∧
      node.unnumbered = e.tree ∧ c.token = .symbol .semicolon := by
  have hphrase := e.phrase he
  have hsemicolon (q : Nat) : Cursor.ofStream (.scan q (';' :: rest)) =
      .ok ⟨.symbol .semicolon, q + 1, .scan (q + 1) rest⟩ := by
    rw [show ';' :: rest = (Token.symbol .semicolon).chars ++ rest from rfl,
      TokenStream.scan_chars q rfl fun c _ => rfl]
    rfl
  have hlast (t : Token) : t ∈ e.tokens.getLast? → ∀ c ∈ (';' :: rest).head?,
      t.extendedBy c = false := by
    rintro _ _ ⟨⟩
    exact Token.extendedBy_eq_false (by decide) (by decide) fun _ _ _ => by decide
  obtain ⟨c, q, hc, hp⟩ := ht.passes hphrase.writable hphrase.apart hlast hsemicolon 0
  obtain ⟨node, m, hr, htree⟩ := e.reads he built
  have hlength := hp.length_le hr.end_notMem
  have hcursor : Cursor.ofStream (.ofSource (String.ofList (text ++ ';' :: rest))) = .ok c := by
    rw [TokenStream.ofSource, String.toList_ofList]
    exact hc
  have hparser := Parser.expression_complete (Nat.lt_succ_of_le (Nat.le_succ_of_le hlength)) c _
    built m _ node (hr.loosen (by cases e.level <;> decide)) hp (Level.ends_symbol _ rfl (by decide))
    (Nat.le_refl _)
  obtain ⟨⟨lexer, k⟩, hparse, hstate⟩ :=
    (Construct.expression.parse_ok ..).2 ⟨c, hcursor, hparser⟩
  exact ⟨node, lexer, k, hparse, htree, congrArg (·.tape.token) hstate⟩

theorem comparison_parses_printed :
    ∃ node c m, Construct.expression.parse 0 "-(a+2) <(b[0]);" = .ok (node, ⟨c, m⟩) ∧
      node.unnumbered = .binary 0 (.order .less)
        (.unary 0 .minus (.binary 0 (.arithmetic .add) (.identifier 0 "a") (.number 0 2)))
        (.access 0 (.identifier 0 "b") (.number 0 0)) ∧
      c.token = .symbol .semicolon :=
  expression_parses_printed (.binary (.order .less)
      (.unary .minus (.binary (.arithmetic .add) (.identifier "a") (.number 2)))
      (.group (.access "b" (.number 0)))) (by decide +kernel) "-(a+2) <(b[0])".toList []
    (.token (.token (.token (.token (.token (.token (.blank rfl (.token (.token (.token (.token
      (.token (.token (.token .nil)))))))))))))) 0

end LevelScript

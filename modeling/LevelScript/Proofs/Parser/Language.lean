import LevelScript.Proofs.Parser.Command
import LevelScript.Proofs.Parser.Rewinding

set_option autoImplicit false

namespace LevelScript

open Checker (Terminal)

namespace TokenStream

def kinds (stream : TokenStream) : List Terminal :=
  stream.words.map Token.terminal

def ofTokens (tokens : List Token) : TokenStream :=
  tokens.foldr (.next · 0) (.finish 0)

theorem words_ofTokens (tokens : List Token) : (ofTokens tokens).words = tokens := by
  induction tokens with
  | nil => rfl
  | cons token tokens ih => exact congrArg (token :: ·) ih

theorem fault?_ofTokens (tokens : List Token) : (ofTokens tokens).fault? = none := by
  induction tokens with
  | nil => rfl
  | cons token tokens ih => exact ih

end TokenStream

theorem Reads.end_notMem {category : Category} {n m : Nat} {tokens : List Token}
    {nodes : List Node} (h : Reads category n tokens nodes m) : Token.endOfInput ∉ tokens := by
  induction h with
  | functionDeclaration _ hr =>
    cases hr <;> simp_all
  | binary hop =>
    obtain ⟨mark, _, rfl⟩ := Level.op?_some hop
    simp_all
  | signed hs =>
    obtain ⟨mark, _, rfl⟩ := Token.sign?_some hs
    simp_all
  | _ => simp_all

namespace Cursor

theorem next?_eq_some {c d : Cursor} : c.next? = some d ↔ ofStream c.rest = .ok d := by
  obtain ⟨token, position, rest⟩ := c
  cases rest <;> simp [next?, ofStream]

theorem passes_words (stream : TokenStream) (h : stream.fault? = none) :
    ∃ c d, ofStream stream = .ok c ∧ c.Passes stream.words d ∧ d.token = .endOfInput := by
  induction stream with
  | finish position => exact ⟨_, _, rfl, rfl, rfl⟩
  | broken => cases h
  | next token position rest ih =>
    obtain ⟨c, d, hc, hp, hd⟩ := ih h
    exact ⟨⟨token, position, rest⟩, d, rfl, .cons rfl (next?_eq_some.2 hc) hp, hd⟩

theorem Passes.words_eq {stream : TokenStream} {c d : Cursor} {tokens : List Token}
    (h : c.Passes tokens d) (hc : ofStream stream = .ok c) (hd : d.token = .endOfInput)
    (ht : Token.endOfInput ∉ tokens) (hs : Token.endOfInput ∉ stream.words) :
    stream.fault? = none ∧ stream.words = tokens := by
  induction stream generalizing c tokens with
  | finish position =>
    cases hc
    cases tokens with
    | nil => exact ⟨rfl, rfl⟩
    | cons token tokens => exact absurd h.token_eq (by rintro rfl; simp at ht)
  | broken => cases hc
  | next token position rest ih =>
    cases hc
    cases tokens with
    | nil =>
      obtain rfl := (passes_nil ..).1 h
      exact absurd hd (by rintro rfl; simp [TokenStream.words] at hs)
    | cons token' tokens =>
      obtain ⟨rfl, e, he, h⟩ := h
      simp only [TokenStream.words, List.mem_cons, not_or] at ht hs
      obtain ⟨hf, hw⟩ := ih h (next?_eq_some.1 he) ht.2 hs.2
      exact ⟨hf, by simp [TokenStream.words, hw]⟩

theorem Passes.length_le {c d : Cursor} {tokens : List Token} (h : c.Passes tokens d)
    (ht : Token.endOfInput ∉ tokens) : tokens.length ≤ c.rest.length + 1 := by
  induction tokens generalizing c with
  | nil => exact Nat.zero_le _
  | cons token tokens ih =>
    obtain ⟨_, e, he, h⟩ := h
    have htail : Token.endOfInput ∉ tokens := fun hmem => ht (List.mem_cons_of_mem _ hmem)
    cases tokens with
    | nil => exact Nat.le_add_left 1 _
    | cons next tokens =>
      have hlength := ih h htail
      have he := next?_eq_some.1 he
      cases hrest : c.rest with
      | finish position =>
        rw [hrest] at he
        cases he
        exact absurd List.mem_cons_self (h.token_eq ▸ htail)
      | broken => rw [hrest] at he; cases he
      | next =>
        rw [hrest] at he
        cases he
        exact Nat.succ_le_succ hlength

end Cursor

theorem Construct.parse_ok (construct : Construct) (built : Nat) (source : String) (node : Node)
    (s : ParseState Cursor) :
    (∃ state, construct.parse built source = .ok (node, state) ∧ state.cursor = s) ↔
      ∃ c, Cursor.ofStream (.ofSource source) = .ok c ∧
        construct.parser (c.rest.length + 3) ⟨c, built⟩ = .ok (node, s) := by
  have hsame := construct.map_cursor_parse built source
  have hstream : construct.parseStream built (.ofSource source) = .ok (node, s) ↔
      ∃ c, Cursor.ofStream (.ofSource source) = .ok c ∧
        construct.parser (c.rest.length + 3) ⟨c, built⟩ = .ok (node, s) := by
    unfold Construct.parseStream Construct.parseFrom
    cases Cursor.ofStream (.ofSource source) with
    | error fault => simp
    | ok c =>
      have hat : construct.parseAt built c = construct.parser (c.rest.length + 3) ⟨c, built⟩ := rfl
      simp only [Except.ok.injEq, exists_eq_left', ← hat]
      cases construct.parseAt built c <;> simp
  rw [← hstream, ← hsame]
  cases construct.parse built source with
  | error fault => simp [Except.map]
  | ok parsed =>
    obtain ⟨node', state⟩ := parsed
    simp only [Except.map, Except.ok.injEq, Prod.mk.injEq]
    constructor
    · rintro ⟨_, ⟨rfl, rfl⟩, hs⟩
      exact ⟨rfl, hs⟩
    · rintro ⟨rfl, hs⟩
      exact ⟨state, ⟨rfl, rfl⟩, hs⟩

theorem program_reads {built : Nat} {source : String} {node : Node} {state : ParseState Lexer}
    (h : Construct.program.parse built source = .ok (node, state)) :
    (TokenStream.ofSource source).fault? = none ∧
      ∃ nodes m, Reads .program built (TokenStream.ofSource source).words nodes m ∧
        node = .block (m + 1) nodes ∧ state.built = m + 1 := by
  obtain ⟨lexer, k⟩ := state
  obtain ⟨c, hc, hrun⟩ := (Construct.parse_ok ..).1 ⟨_, h, rfl⟩
  simp only [Construct.parser, Parser.program, ParseState.cursor, ↓Parser.fresh_ok,
    Parser.bind_ok, Parser.pure_ok] at hrun
  obtain ⟨nodes, d, m, hrun, rfl, rfl, rfl⟩ := hrun
  obtain ⟨hend, tokens, hp, hr⟩ := Parser.topLevels_sound _ _ c _ built m nodes hrun
  obtain ⟨hf, hw⟩ := hp.words_eq hc hend hr.end_notMem (TokenStream.end_notMem_scan 0 _)
  exact ⟨hf, nodes, m, hw ▸ hr, rfl, rfl⟩

theorem program_parseAt {built m : Nat} {stream : TokenStream} {nodes : List Node}
    (hf : stream.fault? = none) (hr : Reads .program built stream.words nodes m) :
    ∃ c d, Cursor.ofStream stream = .ok c ∧
      Construct.program.parseAt built c = .ok (.block (m + 1) nodes, ⟨d, m + 1⟩) := by
  obtain ⟨c, d, hc, hp, hd⟩ := Cursor.passes_words _ hf
  have hlength := hp.length_le hr.end_notMem
  refine ⟨c, d, hc, ?_⟩
  change Construct.program.parser (c.rest.length + 3) ⟨c, built⟩ = _
  simp only [Construct.parser, Parser.program, ↓Parser.fresh_ok, Parser.bind_ok, Parser.pure_ok]
  exact ⟨nodes, d, m, Parser.topLevels_complete _ _ c d built m _ nodes hr hp hd (by omega)
    (by omega), rfl, rfl, rfl⟩

theorem program_parses {built m : Nat} {source : String} {nodes : List Node}
    (hf : (TokenStream.ofSource source).fault? = none)
    (hr : Reads .program built (TokenStream.ofSource source).words nodes m) :
    ∃ d, Construct.program.parse built source = .ok (.block (m + 1) nodes, ⟨d, m + 1⟩) := by
  obtain ⟨c, d, hc, hparse⟩ := program_parseAt hf hr
  obtain ⟨⟨lexer, k⟩, hok, hstate⟩ := (Construct.parse_ok ..).2 ⟨c, hc, hparse⟩
  cases hstate
  exact ⟨lexer, hok⟩

/-- A source is accepted exactly when it has no bad token and the grammar derives the kinds of its
tokens. -/
theorem program_parses_iff_derives (built : Nat) (source : String) :
    (∃ parsed, Construct.program.parse built source = .ok parsed) ↔
      (TokenStream.ofSource source).fault? = none ∧
        Derives .program (TokenStream.ofSource source).kinds := by
  constructor
  · rintro ⟨⟨node, state⟩, h⟩
    obtain ⟨hf, nodes, m, hr, _⟩ := program_reads h
    exact ⟨hf, hr.derives⟩
  · rintro ⟨hf, h⟩
    obtain ⟨nodes, m, hr⟩ := h.reads _ rfl built
    obtain ⟨d, h⟩ := program_parses hf hr
    exact ⟨_, h⟩

end LevelScript

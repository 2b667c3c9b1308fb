import LevelScript.Proofs.Checker.Steps

set_option autoImplicit false

namespace LevelScript.Checker

open Text (Bytes)

/-- The steps that a symbol takes beyond 64 for each of its lexemes. -/
def potential : GrammarSymbol → Int
  | .terminal _ => -63
  | .nonterminal n =>
    match n with
    | .boolean | .baseType | .arrayLiteral => -62
    | .literal | .access | .lengthCall | .type | .variableDeclaration | .functionDeclaration
    | .entityDeclaration | .assignment | .conditional | .loop | .result | .block | .action => -61
    | .factor | .declaration | .command | .member | .parameter => -60
    | .term | .parameterList => -59
    | .sum => -58
    | .relation => -57
    | .logical => -56
    | .expression => -55
    | .list => -54
    | .program | .commands | .members | .parameters | .optionalResultType | .optionalElse
    | .optionalExpression | .optionalList => 1

def potentialOf : List GrammarSymbol → Int
  | [] => 0
  | symbol :: symbols => potential symbol + potentialOf symbols

theorem potentialOf_append (u v : List GrammarSymbol) :
    potentialOf (u ++ v) = potentialOf u + potentialOf v := by
  induction u with
  | nil => exact (Int.zero_add _).symm
  | cons symbol u ih => rw [List.cons_append, potentialOf, ih, potentialOf, Int.add_assoc]

theorem potentialOf_singleton (symbol : GrammarSymbol) : potentialOf [symbol] = potential symbol :=
  Int.add_zero _

theorem potential_body (production : Production) :
    1 + potentialOf production.body ≤ potential (.nonterminal production.head) := by
  cases production <;> decide

/-- What holds of the configuration that a run on a feed has come to in `n` steps. -/
inductive Invariant (feed : Feed) (n : Nat) (c : Configuration) : Prop where
  | reading {symbols : List GrammarSymbol} {texts : List Bytes} {u : List Lexeme} :
      feed = .after u c.feed → Walks [⟨Table.start, []⟩] symbols texts c.stack →
      Parses symbols u texts c.lines.reverse →
      (n : Int) ≤ 64 * u.length + potentialOf symbols → Invariant feed n c
  | finished {top : Frame} {below : List Frame} {texts : List Bytes} {w : List Lexeme} :
      feed = .ofLexemes w → c.stack = top :: below → top.state = Table.final →
      Parses [.nonterminal .program] w texts c.lines.reverse → n ≤ 64 * w.length + 2 →
      Invariant feed n c

theorem Invariant.init (feed : Feed) : Invariant feed 0 (.start feed) :=
  .reading rfl .nil .nil (Int.le_refl 0)

theorem Invariant.start (w : List Lexeme) : Invariant (.ofLexemes w) 0 (.start (.ofLexemes w)) :=
  .init (.ofLexemes w)

theorem Walks.program {symbols : List GrammarSymbol} {texts : List Bytes} {top : Frame}
    {below : List Frame} (h : Walks [⟨Table.start, []⟩] symbols texts (top :: below))
    (htop : top.state = 1) : symbols = [.nonterminal .program] := by
  have hsymbol := Table.symbol?_of_next? Table.start_next?
  rcases h.last_cases with
    ⟨_, hstack⟩ | ⟨u, symbol, s, frame, rest, state, text, rfl, hstack, hu, hnext⟩
  · obtain ⟨rfl, _⟩ := List.cons_eq_cons.1 hstack
    cases htop
  obtain ⟨rfl, rfl⟩ := List.cons_eq_cons.1 hstack
  obtain rfl : state = 1 := htop
  obtain rfl := Option.some.inj ((Table.symbol?_of_next? hnext).symm.trans hsymbol)
  have hframe : frame.state = Table.start := Table.start_of_next? hnext
  rcases hu.last_cases with ⟨rfl, _⟩ | ⟨_, _, _, _, _, _, _, rfl, hbelow, _, hedge⟩
  · rfl
  · obtain ⟨rfl, _⟩ := List.cons_eq_cons.1 hbelow
    obtain rfl : _ = Table.start := hframe
    cases Table.start_symbol?.symm.trans (Table.symbol?_of_next? hedge)

namespace Configuration

theorem step_final {c d : Configuration} {top : Frame} {below : List Frame}
    (hstack : c.stack = top :: below) (htop : top.state = Table.final) : c.step ≠ .next d := by
  intro hstep
  have heffect := hstep ▸ c.step_effect
  cases heffect with
  | shift hframes _ hedge =>
    obtain ⟨rfl, _⟩ := List.cons_eq_cons.1 (hstack.symm.trans hframes)
    cases (Table.final_next? _).symm.trans (htop ▸ hedge)
  | reduce hframes hproduction _ _ =>
    obtain ⟨rfl, _⟩ := List.cons_eq_cons.1 (hstack.symm.trans hframes)
    cases Table.final_reduction?.symm.trans (htop ▸ hproduction)

end Configuration

namespace Invariant

theorem shift {feed rest : Feed} {n state : Nat} {u : List Lexeme} {c : Configuration}
    {symbols : List GrammarSymbol} {texts : List Bytes} {top : Frame} {below : List Frame}
    {lexeme : Lexeme} (hfeed : feed = .after u c.feed)
    (hwalks : Walks [⟨Table.start, []⟩] symbols texts c.stack)
    (hparses : Parses symbols u texts c.lines.reverse)
    (hn : (n : Int) ≤ 64 * u.length + potentialOf symbols)
    (hstack : c.stack = top :: below) (hahead : c.feed.ahead? = some (lexeme, rest))
    (hnext : Table.next? top.state (.terminal lexeme.terminal) = some state) :
    Invariant feed (n + 1) ⟨⟨state, lexeme.text⟩ :: c.stack, rest, lexeme.text, c.lines⟩ := by
  rw [hstack] at hwalks ⊢
  cases hrest : c.feed with
  | finish =>
    rw [hrest] at hfeed hahead
    cases hahead
    obtain ⟨htop, rfl⟩ := Table.next?_endOfInput hnext
    obtain rfl := hwalks.program htop
    rw [potentialOf_singleton, potential] at hn
    exact .finished hfeed rfl rfl hparses (by omega)
  | invalid byte =>
    rw [hrest] at hahead
    cases hahead
  | next first more =>
    rw [hrest] at hfeed hahead
    cases hahead
    have hlexeme : Parses [.terminal lexeme.terminal] [lexeme] [lexeme.text] [] := .terminal .nil
    have hread := hparses.append hlexeme
    rw [List.append_nil] at hread
    refine .reading ?_ (hwalks.append (.single hnext lexeme.text)) hread ?_
    · rw [Feed.after_append]
      exact hfeed
    · rw [List.length_append, List.length_singleton, potentialOf_append, potentialOf_singleton,
        potential]
      omega

theorem reduce {feed : Feed} {n : Nat} {u : List Lexeme} {c d : Configuration}
    {symbols : List GrammarSymbol} {texts : List Bytes} {top : Frame} {below : List Frame}
    {production : Production} {last : Bytes} (hfeed : feed = .after u c.feed)
    (hwalks : Walks [⟨Table.start, []⟩] symbols texts c.stack)
    (hparses : Parses symbols u texts c.lines.reverse)
    (hn : (n : Int) ≤ 64 * u.length + potentialOf symbols)
    (hstack : c.stack = top :: below)
    (hreduction : Table.reduction? top.state = some production)
    (hreduce : { c with last := last }.reduce production = .next d) : Invariant feed (n + 1) d := by
  obtain ⟨before, s, t, base, rest, state, rfl, rfl, hbefore, hbody, hnext, hreduced⟩ :=
    Configuration.exists_of_reduction hwalks hstack hreduction
  cases (hreduced last).symm.trans hreduce
  have hread := hparses.folded hbody.length_texts
  refine .reading hfeed (hbefore.append (.single hnext [])) ?_ ?_
  · have hreport : ((production.line? t).toList ++ c.lines).reverse =
        c.lines.reverse ++ (production.line? t).toList := by
      cases production.line? t <;> simp
    rw [hreport]
    exact hread
  · have hpotential := potential_body production
    rw [potentialOf_append] at hn ⊢
    rw [potentialOf_singleton]
    omega

theorem step {feed : Feed} {n : Nat} {c d : Configuration} (h : Invariant feed n c)
    (hstep : c.step = .next d) : Invariant feed (n + 1) d := by
  cases h with
  | finished _ hstack htop _ _ => exact absurd hstep (Configuration.step_final hstack htop)
  | reading hfeed hwalks hparses hn =>
    have heffect := hstep ▸ c.step_effect
    cases heffect with
    | shift hstack hahead hnext => exact shift hfeed hwalks hparses hn hstack hahead hnext
    | reduce hstack hreduction _ hreduce =>
      exact reduce hfeed hwalks hparses hn hstack hreduction hreduce

theorem runs {feed : Feed} {m n : Nat} {c d : Configuration} (h : Invariant feed m c)
    (hruns : Configuration.Runs n c d) : Invariant feed (m + n) d := by
  induction hruns generalizing m with
  | refl c => exact h
  | head hstep _ ih =>
    rw [Nat.add_comm _ 1, ← Nat.add_assoc]
    exact ih (h.step hstep)

theorem sentence {feed : Feed} {n : Nat} {c : Configuration} {top : Frame} {below : List Frame}
    (h : Invariant feed n c) (hend : ∀ lexeme ∈ feed.lexemes, lexeme.terminal ≠ .endOfInput)
    (hstack : c.stack = top :: below) (htop : top.state = Table.final) :
    ∃ w texts, feed = .ofLexemes w ∧ Parses [.nonterminal .program] w texts c.lines.reverse := by
  cases h with
  | finished hfeed _ _ hparses _ => exact ⟨_, _, hfeed, hparses⟩
  | reading hfeed hwalks hparses _ =>
    exfalso
    rcases (hstack ▸ hwalks).last_cases with
      ⟨_, hbase⟩ | ⟨_, symbol, _, _, _, state, _, rfl, hframes, _, hnext⟩
    · obtain ⟨rfl, _⟩ := List.cons_eq_cons.1 hbase
      cases htop
    · obtain ⟨rfl, _⟩ := List.cons_eq_cons.1 hframes
      obtain rfl : state = Table.final := htop
      have hsymbol := Table.symbol?_of_next? hnext
      rw [Table.symbol?, Table.final_row?] at hsymbol
      cases hsymbol
      obtain ⟨lexeme, hmem, hlexeme⟩ :=
        hparses.exists_lexeme (List.mem_append_right _ List.mem_cons_self)
      refine hend lexeme ?_ hlexeme
      rw [hfeed, Feed.lexemes_after]
      exact List.mem_append_left _ hmem

theorem program {n : Nat} {w : List Lexeme} {c : Configuration} {top : Frame}
    {below : List Frame} (h : Invariant (.ofLexemes w) n c)
    (hend : ∀ lexeme ∈ w, lexeme.terminal ≠ .endOfInput) (hstack : c.stack = top :: below)
    (htop : top.state = Table.final) :
    ∃ texts, Parses [.nonterminal .program] w texts c.lines.reverse := by
  rw [← Feed.lexemes_ofLexemes w] at hend
  obtain ⟨w', texts, hfeed, hparses⟩ := h.sentence hend hstack htop
  obtain rfl : w = w' := by
    rw [← Feed.lexemes_ofLexemes w, hfeed, Feed.lexemes_ofLexemes]
  exact ⟨texts, hparses⟩

end Invariant

end LevelScript.Checker

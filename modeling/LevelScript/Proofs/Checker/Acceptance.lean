import LevelScript.Proofs.Checker.Lookahead
import LevelScript.Proofs.Checker.Soundness

set_option autoImplicit false

namespace LevelScript.Checker

open Text (Bytes)

open LevelScript.Checker.Configuration (Runs stackLimit)

/-- The stack has room wherever the automaton comes from here. -/
def Roomy (c : Configuration) : Prop :=
  ∀ n d, Runs n c d → d.stack.length < stackLimit

theorem Roomy.runs {n : Nat} {c d : Configuration} (h : Roomy c) (hruns : Runs n c d) : Roomy d :=
  fun _ _ hmore => h _ _ (hruns.trans hmore)

theorem Configuration.length_stack_step {c d : Configuration} (h : c.step = .next d) :
    d.stack.length ≤ c.stack.length + 1 := by
  have heffect := h ▸ c.step_effect
  cases heffect with
  | shift _ _ _ => exact Nat.le_refl _
  | @reduce _ _ production _ _ _ _ _ hreduce =>
    rw [Configuration.reduce] at hreduce
    have hdrop : (c.stack.drop production.body.length).length ≤ c.stack.length := by
      rw [List.length_drop]
      exact Nat.sub_le _ _
    split at hreduce
    · cases hreduce
    · next hbase =>
      split at hreduce
      · cases hreduce
      · cases hreduce
        exact Nat.succ_le_succ (hbase ▸ hdrop)

theorem Configuration.Runs.length_stack {n : Nat} {c d : Configuration} (h : Runs n c d) :
    d.stack.length ≤ c.stack.length + n := by
  induction h with
  | refl c => exact Nat.le_refl _
  | head hstep _ ih =>
    have hone := Configuration.length_stack_step hstep
    omega

theorem Configuration.Runs.le_of_run {n k : Nat} {c d : Configuration} (h : Runs n c d)
    (hrun : (Configuration.run k c).1 ≠ .stuck) : n ≤ k := by
  induction h generalizing k with
  | refl c => exact Nat.zero_le k
  | head hstep _ ih =>
    cases k with
    | zero => exact absurd rfl hrun
    | succ k =>
      rw [Configuration.run, hstep] at hrun
      exact Nat.succ_le_succ (ih hrun)

theorem roomy_of_run {k : Nat} {c : Configuration} (hrun : (Configuration.run k c).1 ≠ .stuck)
    (hk : c.stack.length + k < stackLimit) : Roomy c := by
  intro n d hruns
  have hlength := hruns.length_stack
  have hle := hruns.le_of_run hrun
  omega

theorem ahead_follows {n : Nonterminal} {symbols : List GrammarSymbol} {w : List Lexeme}
    {texts : List Bytes} {lines : List Line} {rest tail : Feed} {lexeme : Lexeme}
    (hparses : Parses symbols w texts lines) (hahead : rest.ahead? = some (lexeme, tail))
    (hallows : allows (.nonterminal n :: symbols) lexeme.terminal = true) :
    ∃ first after, (Feed.after w rest).ahead? = some (first, after) ∧
      first.terminal ∈ n.followers := by
  rw [allows, Bool.and_eq_true, Bool.and_eq_true, Bool.or_eq_true] at hallows
  obtain ⟨⟨hstarts, hnullable⟩, _⟩ := hallows
  rcases hparses.begins with ⟨rfl, hempty⟩ | ⟨first, more, rfl, hfirst⟩
  · rcases hnullable with hfull | hfollows
    · rw [hempty] at hfull
      cases hfull
    · exact ⟨lexeme, tail, hahead, by simpa using hfollows⟩
  · exact ⟨first, _, rfl, by simpa using List.all_eq_true.1 hstarts _ hfirst⟩

theorem allows_tail {symbol : GrammarSymbol} {symbols : List GrammarSymbol} {t : Terminal}
    (h : allows (symbol :: symbols) t = true) : allows symbols t = true := by
  cases symbol with
  | terminal _ => exact h
  | nonterminal n => exact (Bool.and_eq_true _ _ ▸ h).2

theorem runs_reduce {c : Configuration} {production : Production} {above top : Frame}
    {rest below : List Frame} {texts : List Bytes} {lexeme : Lexeme} {tail : Feed} {state : Nat}
    (hroom : c.stack.length < stackLimit) (hstack : c.stack = above :: rest)
    (hwalks : Walks (top :: below) production.body texts c.stack)
    (hreduction : Table.reduction? above.state = some production)
    (hahead : c.feed.ahead? = some (lexeme, tail))
    (hfollows : lexeme.terminal ∈ production.head.followers)
    (hnext : Table.next? top.state (.nonterminal production.head) = some state) :
    ∃ last, Runs 1 c ⟨⟨state, []⟩ :: top :: below, c.feed, last,
      (production.line? texts).toList ++ c.lines⟩ := by
  obtain ⟨row, hrow, hproduction⟩ := Option.bind_eq_some_iff.1 hreduction
  obtain ⟨last, hstep⟩ := Configuration.step_reduce hstack hroom hahead hrow hproduction
    (Table.shift?_follower hrow hproduction hfollows)
  rw [Configuration.reduce_of_walks (c := { c with last := last }) hwalks hnext] at hstep
  exact ⟨last, .single hstep⟩

theorem Parses.runs {symbols : List GrammarSymbol} {w : List Lexeme} {texts : List Bytes}
    {lines : List Line} (h : Parses symbols w texts lines) {c : Configuration} {rest tail : Feed}
    {lexeme : Lexeme} {stack : List Frame} (hroom : Roomy c) (hfeed : c.feed = .after w rest)
    (hwalks : Walks c.stack symbols texts stack) (hahead : rest.ahead? = some (lexeme, tail))
    (hallows : allows symbols lexeme.terminal = true) :
    ∃ n last, Runs n c ⟨stack, rest, last, lines.reverse ++ c.lines⟩ ∧
      (n : Int) ≤ 64 * w.length + potentialOf symbols := by
  induction h generalizing c rest tail lexeme stack with
  | nil =>
    obtain ⟨_, _, last, _⟩ := c
    obtain rfl : _ = rest := hfeed
    cases hwalks
    exact ⟨0, last, .refl _, Int.le_refl 0⟩
  | @terminal first symbols w texts lines hparses ih =>
    generalize hbase : c.stack = base at hwalks
    cases hwalks with
    | @cons top below _ _ _ _ _ state hnext hwalks =>
      have hstep := Configuration.step_shift hbase (hroom 0 c (.refl c))
        (hfeed ▸ rfl : c.feed.ahead? = some (first, .after w rest)) hnext
      rw [hbase] at hstep
      obtain ⟨n, last, hruns, hn⟩ := ih (hroom.runs (.single hstep)) rfl hwalks hahead hallows
      refine ⟨n + 1, last, .head hstep hruns, ?_⟩
      simp only [List.length_cons, potentialOf, potential]
      omega
  | @production production symbols u w parts texts inner lines hbody hparses ihbody ih =>
    generalize hbase : c.stack = base at hwalks
    cases hwalks with
    | @cons top below _ _ _ _ _ state hnext hwalks =>
      -- the body is run first, then it is folded into its head, and then the rest is run
      obtain ⟨first, after, hfirst, hfollows⟩ := ahead_follows hparses hahead hallows
      obtain ⟨e, hwalk, hreduction⟩ := Table.walk?_body production.mem_all hnext
      obtain ⟨above, frames, hframes, rfl⟩ :=
        Walks.of_walk? hwalk hbody.length_texts rfl below
      obtain ⟨m, last, hruns, hm⟩ := ihbody hroom
        (by rw [hfeed, Feed.after, List.foldr_append]; rfl) (hbase ▸ hframes) hfirst
        (production.closed.followers _ hfollows)
      obtain ⟨last', hreduce⟩ := runs_reduce (hroom _ _ hruns) rfl hframes hreduction hfirst
        hfollows hnext
      obtain ⟨n, last'', hmore, hn⟩ := ih (hroom.runs (hruns.trans hreduce)) rfl hwalks hahead
        (allows_tail hallows)
      refine ⟨m + 1 + n, last'', ?_, ?_⟩
      · have hlines : lines.reverse ++
            ((production.line? parts).toList ++ (inner.reverse ++ c.lines)) =
              (inner ++ ((production.line? parts).toList ++ lines)).reverse ++ c.lines := by
          cases production.line? parts <;> simp
        exact hlines ▸ (hruns.trans hreduce).trans hmore
      · have hpotential := potential_body production
        simp only [List.length_append, potentialOf]
        omega

theorem Configuration.step_accept {c : Configuration} {top : Frame} {below : List Frame}
    (hstack : c.stack = top :: below) (htop : top.state = Table.final)
    (hroom : c.stack.length < stackLimit) : c.step = .halt .accepted := by
  obtain ⟨stack, feed, last, lines⟩ := c
  obtain rfl : stack = top :: below := hstack
  simp only [step, Nat.not_le.2 hroom, htop, if_false, if_true]

theorem Verdict.ofFeed_eq {feed : Feed} {n : Nat} {c : Configuration} {reason : Halt}
    (hruns : Runs n (.start feed) c) (hhalt : c.step = .halt reason)
    (hn : n < 64 * (feed.length + 2)) : Verdict.ofFeed feed = ⟨reason, c.lines.reverse⟩ := by
  obtain ⟨k, hk⟩ := Nat.exists_eq_add_of_lt hn
  have hrun := hruns.run_eq (k + 1)
  rw [Configuration.run, hhalt] at hrun
  simp only [Verdict.ofFeed, hk, Nat.add_assoc, hrun]

theorem Verdict.runs_of_ofFeed {feed : Feed} (h : (Verdict.ofFeed feed).halt ≠ .stuck) :
    ∃ n c, Runs n (.start feed) c ∧ c.step = .halt (Verdict.ofFeed feed).halt ∧
      (Verdict.ofFeed feed).lines = c.lines.reverse := by
  simp only [Verdict.ofFeed] at h ⊢
  obtain ⟨n, hruns, hhalt⟩ := Configuration.runs_of_run h
  exact ⟨n, _, hruns, hhalt, rfl⟩

theorem Verdict.runs_of_accepted {feed : Feed} (h : (Verdict.ofFeed feed).halt = .accepted) :
    ∃ n c, Runs n (.start feed) c ∧ c.step = .halt .accepted := by
  obtain ⟨n, c, hruns, hhalt, _⟩ := Verdict.runs_of_ofFeed (ne_of_eq_of_ne h nofun)
  exact ⟨n, c, hruns, h ▸ hhalt⟩

theorem verdict_of_parses {w : List Lexeme} {texts : List Bytes} {lines : List Line}
    (h : Parses [.nonterminal .program] w texts lines) (hroom : Roomy (.start (.ofLexemes w))) :
    Verdict.ofFeed (.ofLexemes w) = ⟨.accepted, lines⟩ := by
  obtain ⟨text, rfl⟩ := List.length_eq_one_iff.1 h.length_texts
  have hahead : Feed.finish.ahead? = some (⟨.endOfInput, []⟩, .finish) := rfl
  have hwalks : Walks (Configuration.start (.ofLexemes w)).stack [.nonterminal .program] [text]
      [⟨1, text⟩, ⟨Table.start, []⟩] :=
    @Walks.single ⟨Table.start, []⟩ [] _ _ Table.start_next? text
  obtain ⟨n, last, hruns, hn⟩ := h.runs hroom rfl hwalks hahead rfl
  have hread := Runs.single (@Configuration.step_shift _ ⟨1, text⟩ [⟨Table.start, []⟩] _ _ _ rfl
    (hroom _ _ hruns) hahead Table.program_next?)
  have haccept := Configuration.step_accept rfl rfl (hroom _ _ (hruns.trans hread))
  have hsteps : n + 1 < 64 * ((Feed.ofLexemes w).length + 2) := by
    rw [Feed.length_ofLexemes]
    rw [potentialOf_singleton, potential] at hn
    omega
  have hverdict := Verdict.ofFeed_eq (hruns.trans hread) haccept hsteps
  have hlines : (lines.reverse ++ (Configuration.start (.ofLexemes w)).lines).reverse = lines := by
    rw [List.reverse_append, List.reverse_reverse]
    rfl
  rwa [hlines] at hverdict

theorem accepted_of_parses {w : List Lexeme} {texts : List Bytes} {lines : List Line}
    (h : Parses [.nonterminal .program] w texts lines) (hroom : Roomy (.start (.ofLexemes w))) :
    (Verdict.ofFeed (.ofLexemes w)).halt = .accepted := by
  rw [verdict_of_parses h hroom]

/-- Where its stack has room, the automaton accepts the sentences of the grammar and nothing else.
The end of the input is no lexeme. -/
theorem verdict_accepted_iff_mem_language (w : List Lexeme)
    (hend : ∀ lexeme ∈ w, lexeme.terminal ≠ .endOfInput)
    (hroom : ∀ n c, Runs n (.start (.ofLexemes w)) c → c.stack.length < stackLimit) :
    (Verdict.ofFeed (.ofLexemes w)).halt = .accepted ↔
      w.map Lexeme.terminal ∈ grammar.language := by
  rw [mem_language_iff_parses]
  constructor
  · intro h
    obtain ⟨n, c, hruns, hhalt⟩ := Verdict.runs_of_accepted h
    obtain ⟨top, below, hstack, htop⟩ := Configuration.final_of_accepted hhalt
    obtain ⟨texts, hparses⟩ := ((Invariant.start w).runs hruns).program hend hstack htop
    exact ⟨texts, _, hparses⟩
  · rintro ⟨texts, lines, h⟩
    exact accepted_of_parses h hroom

/-- A loop over an array, `until (x < len(y)) { x = [y[0]]; }`. -/
theorem loop_accepted_iff_mem_language :
    let w : List Lexeme :=
      [⟨.keyword .untilWord, []⟩, ⟨.symbol .leftParen, []⟩, ⟨.identifier, [120]⟩,
       ⟨.symbol .less, []⟩, ⟨.keyword .len, []⟩, ⟨.symbol .leftParen, []⟩, ⟨.identifier, [121]⟩,
       ⟨.symbol .rightParen, []⟩, ⟨.symbol .rightParen, []⟩, ⟨.symbol .leftBrace, []⟩,
       ⟨.identifier, [120]⟩, ⟨.symbol .assign, []⟩, ⟨.symbol .leftBracket, []⟩,
       ⟨.identifier, [121]⟩, ⟨.symbol .leftBracket, []⟩, ⟨.number, [48]⟩,
       ⟨.symbol .rightBracket, []⟩, ⟨.symbol .rightBracket, []⟩, ⟨.symbol .semicolon, []⟩,
       ⟨.symbol .rightBrace, []⟩]
    (∀ lexeme ∈ w, lexeme.terminal ≠ .endOfInput) ∧ Roomy (.start (.ofLexemes w)) ∧
      (Verdict.ofFeed (.ofLexemes w)).halt = .accepted ∧
      w.map Lexeme.terminal ∈ grammar.language := by
  intro w
  have hend : ∀ lexeme ∈ w, lexeme.terminal ≠ .endOfInput := by decide
  have haccepted : (Verdict.ofFeed (.ofLexemes w)).halt = .accepted := by decide +kernel
  have hroom : Roomy (.start (.ofLexemes w)) :=
    @roomy_of_run 300 _ (by decide +kernel) (by decide +kernel)
  exact ⟨hend, hroom, haccepted, (verdict_accepted_iff_mem_language w hend hroom).1 haccepted⟩

end LevelScript.Checker

import LevelScript.Proofs.Checker.Derivation
import LevelScript.Proofs.Checker.Transitions

set_option autoImplicit false

namespace LevelScript.Checker

open Text (Bytes)

/-- `Walks base symbols texts stack`: the stack is `base` with the symbols and their texts put on
it. -/
inductive Walks : List Frame → List GrammarSymbol → List Bytes → List Frame → Prop where
  | nil {stack : List Frame} : Walks stack [] [] stack
  | cons {top : Frame} {below stack : List Frame} {symbol : GrammarSymbol}
      {symbols : List GrammarSymbol} {text : Bytes} {texts : List Bytes} {state : Nat} :
      Table.next? top.state symbol = some state →
      Walks (⟨state, text⟩ :: top :: below) symbols texts stack →
      Walks (top :: below) (symbol :: symbols) (text :: texts) stack

namespace Walks

theorem single {top : Frame} {below : List Frame} {symbol : GrammarSymbol} {state : Nat}
    (h : Table.next? top.state symbol = some state) (text : Bytes) :
    Walks (top :: below) [symbol] [text] (⟨state, text⟩ :: top :: below) :=
  .cons h .nil

theorem append {base middle stack : List Frame} {u v : List GrammarSymbol} {s t : List Bytes}
    (hu : Walks base u s middle) (hv : Walks middle v t stack) :
    Walks base (u ++ v) (s ++ t) stack := by
  induction hu with
  | nil => exact hv
  | cons hnext _ ih => exact .cons hnext (ih hv)

theorem split {base stack : List Frame} {u v : List GrammarSymbol} {texts : List Bytes}
    (h : Walks base (u ++ v) texts stack) :
    ∃ s t middle, texts = s ++ t ∧ Walks base u s middle ∧ Walks middle v t stack := by
  induction u generalizing base texts with
  | nil => exact ⟨[], texts, base, rfl, .nil, h⟩
  | cons symbol u ih =>
    cases h with
    | cons hnext h =>
      obtain ⟨s, t, middle, rfl, hu, hv⟩ := ih h
      exact ⟨_ :: s, t, middle, rfl, .cons hnext hu, hv⟩

theorem length_texts {base stack : List Frame} {symbols : List GrammarSymbol}
    {texts : List Bytes} (h : Walks base symbols texts stack) : texts.length = symbols.length := by
  induction h with
  | nil => rfl
  | cons _ _ ih => simp [ih]

theorem frames {base stack : List Frame} {symbols : List GrammarSymbol} {texts : List Bytes}
    (h : Walks base symbols texts stack) :
    ∃ frames, stack = frames ++ base ∧ frames.length = symbols.length ∧
      (frames.map Frame.text).reverse = texts := by
  induction h with
  | nil => exact ⟨[], rfl, rfl, rfl⟩
  | @cons top below _ _ _ text _ state _ _ ih =>
    obtain ⟨frames, rfl, hlength, rfl⟩ := ih
    exact ⟨frames ++ [⟨state, text⟩], by simp, by simp [hlength], by simp⟩

theorem walk? {top above : Frame} {below rest : List Frame} {symbols : List GrammarSymbol}
    {texts : List Bytes} (h : Walks (top :: below) symbols texts (above :: rest)) :
    Table.walk? top.state symbols = some above.state := by
  induction symbols generalizing top below texts with
  | nil =>
    cases h
    rfl
  | cons symbol symbols ih =>
    cases h with
    | cons hnext h => exact Option.bind_eq_some_iff.2 ⟨_, hnext, ih h⟩

theorem exists_top {top : Frame} {below stack : List Frame} {symbols : List GrammarSymbol}
    {texts : List Bytes} (h : Walks (top :: below) symbols texts stack) :
    ∃ above rest, stack = above :: rest := by
  obtain ⟨frames, rfl, _⟩ := h.frames
  exact List.exists_cons_of_ne_nil (List.append_ne_nil_of_right_ne_nil _ (List.cons_ne_nil _ _))

theorem last_cases {base stack : List Frame} {symbols : List GrammarSymbol} {texts : List Bytes}
    (h : Walks base symbols texts stack) :
    (symbols = [] ∧ stack = base) ∨
      ∃ before symbol s frame below state text, symbols = before ++ [symbol] ∧
        stack = ⟨state, text⟩ :: frame :: below ∧ Walks base before s (frame :: below) ∧
        Table.next? frame.state symbol = some state := by
  rcases List.eq_nil_or_concat symbols with rfl | ⟨before, symbol, rfl⟩
  · cases h with
    | nil => exact .inl ⟨rfl, rfl⟩
  · rw [List.concat_eq_append] at h ⊢
    obtain ⟨s, t, middle, rfl, hbefore, hlast⟩ := h.split
    cases hlast with
    | cons hnext hnil =>
      cases hnil with
      | nil => exact .inr ⟨before, symbol, s, _, _, _, _, rfl, rfl, hbefore, hnext⟩

theorem top_induction {motive : List GrammarSymbol → Nat → Prop} (hstart : motive [] Table.start)
    (hedge : ∀ symbols symbol state after, motive symbols state →
      Table.next? state symbol = some after → motive (symbols ++ [symbol]) after)
    {symbols : List GrammarSymbol} {texts : List Bytes} {top : Frame} {below : List Frame}
    (h : Walks [⟨Table.start, []⟩] symbols texts (top :: below)) : motive symbols top.state := by
  induction hlength : symbols.length generalizing symbols texts top below with
  | zero =>
    obtain rfl := List.length_eq_zero_iff.1 hlength
    cases h
    exact hstart
  | succ n ih =>
    rcases h.last_cases with
      ⟨rfl, _⟩ | ⟨before, symbol, s, frame, rest, state, text, rfl, hstack, hbefore, hnext⟩
    · cases hlength
    · obtain ⟨rfl, _⟩ := List.cons_eq_cons.1 hstack
      rw [List.length_append] at hlength
      exact hedge before symbol frame.state state (ih hbefore (Nat.succ.inj hlength)) hnext

theorem of_walk? {state last : Nat} {symbols : List GrammarSymbol} {texts : List Bytes}
    (h : Table.walk? state symbols = some last) (hlength : texts.length = symbols.length)
    {top : Frame} (htop : top.state = state) (below : List Frame) :
    ∃ above rest, Walks (top :: below) symbols texts (above :: rest) ∧ above.state = last := by
  induction symbols generalizing state texts top below with
  | nil =>
    obtain rfl := List.length_eq_zero_iff.1 hlength
    exact ⟨top, below, .nil, htop.trans (Option.some.inj h)⟩
  | cons symbol symbols ih =>
    obtain ⟨text, texts, rfl⟩ := List.exists_cons_of_length_eq_add_one hlength
    obtain ⟨after, hnext, hwalk⟩ := Option.bind_eq_some_iff.1 h
    obtain ⟨above, rest, hwalks, habove⟩ :=
      ih hwalk (Nat.succ.inj hlength) (rfl : (⟨after, text⟩ : Frame).state = after) (top :: below)
    exact ⟨above, rest, .cons (htop ▸ hnext) hwalks, habove⟩

theorem ends {targets : List Nat} {symbols body : List GrammarSymbol} {texts : List Bytes}
    {top : Frame} {below : List Frame}
    (h : Walks [⟨Table.start, []⟩] symbols texts (top :: below)) (htop : top.state ∈ targets)
    (hspelled : Table.spelled targets body = true) : ∃ u, symbols = u ++ body.reverse := by
  induction body generalizing targets symbols texts top below with
  | nil => exact ⟨symbols, by simp⟩
  | cons symbol body ih =>
    rw [Table.spelled, Bool.and_eq_true, Bool.or_eq_true] at hspelled
    have hsymbol : Table.symbol? top.state = some symbol := by
      simpa using List.all_eq_true.1 hspelled.1 _ htop
    rcases h.last_cases with
      ⟨_, hstack⟩ | ⟨u, _, s, frame, rest, state, text, rfl, hstack, hu, hnext⟩
    · obtain ⟨rfl, rfl⟩ := List.cons_eq_cons.1 hstack
      cases Table.start_symbol?.symm.trans hsymbol
    · obtain ⟨rfl, rfl⟩ := List.cons_eq_cons.1 hstack
      obtain rfl := Option.some.inj ((Table.symbol?_of_next? hnext).symm.trans hsymbol)
      rcases hspelled.2 with hempty | hrest
      · obtain rfl := List.isEmpty_iff.1 hempty
        exact ⟨u, rfl⟩
      · obtain ⟨v, rfl⟩ := ih hu (Table.mem_before hnext htop) hrest
        exact ⟨v, by simp⟩

/-- What a state reduces stands on top of the stack, and its head has a place below it. -/
theorem reducible {symbols : List GrammarSymbol} {texts : List Bytes} {top : Frame}
    {below : List Frame} {production : Production}
    (h : Walks [⟨Table.start, []⟩] symbols texts (top :: below))
    (hreduction : Table.reduction? top.state = some production) :
    ∃ u s t base rest state, symbols = u ++ production.body ∧ texts = s ++ t ∧
      Walks [⟨Table.start, []⟩] u s (base :: rest) ∧
      Walks (base :: rest) production.body t (top :: below) ∧
      Table.next? base.state (.nonterminal production.head) = some state := by
  obtain ⟨u, rfl⟩ := h.ends (List.mem_singleton.2 rfl) (Table.spelled_reduction hreduction)
  rw [List.reverse_reverse] at h ⊢
  obtain ⟨s, t, middle, rfl, hbefore, hbody⟩ := h.split
  obtain ⟨base, rest, rfl⟩ := hbefore.exists_top
  obtain ⟨state, hnext⟩ := Table.next?_of_walk? production.mem_all hbody.walk? hreduction
  exact ⟨u, s, t, base, rest, state, rfl, rfl, hbefore, hbody, hnext⟩

end Walks

namespace Feed

def after (w : List Lexeme) (rest : Feed) : Feed :=
  w.foldr .next rest

def ofLexemes (w : List Lexeme) : Feed :=
  after w .finish

def ahead? : Feed → Option (Lexeme × Feed)
  | .finish => some (⟨.endOfInput, []⟩, .finish)
  | .invalid _ => none
  | .next lexeme rest => some (lexeme, rest)

/-- The lexemes up to the end or to a byte that begins nothing. -/
def lexemes : Feed → List Lexeme
  | .finish => []
  | .invalid _ => []
  | .next lexeme rest => lexeme :: rest.lexemes

theorem lexemes_after (w : List Lexeme) (rest : Feed) :
    (after w rest).lexemes = w ++ rest.lexemes := by
  induction w with
  | nil => rfl
  | cons lexeme w ih => exact congrArg (lexeme :: ·) ih

theorem lexemes_ofLexemes (w : List Lexeme) : (ofLexemes w).lexemes = w :=
  (lexemes_after w .finish).trans (List.append_nil w)

theorem after_append (u v : List Lexeme) (rest : Feed) :
    after (u ++ v) rest = after u (after v rest) :=
  List.foldr_append

theorem after_injective {u v : List Lexeme} {rest : Feed} (h : after u rest = after v rest) :
    u = v := by
  have hlexemes := congrArg lexemes h
  rw [lexemes_after, lexemes_after] at hlexemes
  exact List.append_cancel_right hlexemes

theorem length_after (w : List Lexeme) (rest : Feed) :
    (after w rest).length = w.length + rest.length := by
  induction w with
  | nil => exact (Nat.zero_add _).symm
  | cons lexeme w ih =>
    change (after w rest).length + 1 = w.length + 1 + rest.length
    omega

theorem length_ofLexemes (w : List Lexeme) : (ofLexemes w).length = w.length := by
  induction w with
  | nil => rfl
  | cons _ w ih => exact congrArg (· + 1) ih

end Feed

namespace Configuration

theorem reduce_of_walks {c : Configuration} {production : Production} {top : Frame}
    {below : List Frame} {texts : List Bytes} {state : Nat}
    (h : Walks (top :: below) production.body texts c.stack)
    (hnext : Table.next? top.state (.nonterminal production.head) = some state) :
    c.reduce production = .next { c with
      stack := ⟨state, []⟩ :: top :: below
      lines := (production.line? texts).toList ++ c.lines } := by
  obtain ⟨frames, hstack, hlength, rfl⟩ := h.frames
  have hdrop : c.stack.drop production.body.length = top :: below := by
    rw [hstack, ← hlength, List.drop_left]
  have htake : c.stack.take production.body.length = frames := by
    rw [hstack, ← hlength, List.take_left]
  rw [Table.next?_nonterminal] at hnext
  simp only [reduce, hdrop, htake, hnext]

theorem exists_of_reduction {c : Configuration} {symbols : List GrammarSymbol} {texts : List Bytes}
    {top : Frame} {below : List Frame} {production : Production}
    (h : Walks [⟨Table.start, []⟩] symbols texts c.stack) (hstack : c.stack = top :: below)
    (hreduction : Table.reduction? top.state = some production) :
    ∃ u s t base rest state, symbols = u ++ production.body ∧ texts = s ++ t ∧
      Walks [⟨Table.start, []⟩] u s (base :: rest) ∧
      Walks (base :: rest) production.body t c.stack ∧
      Table.next? base.state (.nonterminal production.head) = some state ∧
      ∀ last, { c with last := last }.reduce production =
        .next ⟨⟨state, []⟩ :: base :: rest, c.feed, last,
          (production.line? t).toList ++ c.lines⟩ := by
  rw [hstack] at h
  obtain ⟨u, s, t, base, rest, state, hsymbols, htexts, hbefore, hbody, hnext⟩ :=
    h.reducible hreduction
  rw [← hstack] at hbody
  exact ⟨u, s, t, base, rest, state, hsymbols, htexts, hbefore, hbody, hnext,
    fun last => reduce_of_walks (c := { c with last := last }) hbody hnext⟩

theorem step_of_row {c : Configuration} {top : Frame} {below : List Frame} {row : TableRow}
    (hstack : c.stack = top :: below) (hroom : c.stack.length < stackLimit)
    (hrow : Table.row? top.state = some row)
    (hentry : (∃ t, (row.shift? t).isSome) ∨ row.reduction.isSome) :
    c.step =
      match row.shifts, row.reduction with
      | [], some production => c.reduce production
      | _, _ =>
        match c.feed with
        | .finish => c.act row .endOfInput [] .finish
        | .invalid byte => .halt (.invalidByte byte)
        | .next lexeme rest => c.act row lexeme.terminal lexeme.text rest := by
  have hfinal : top.state ≠ Table.final := by
    intro htop
    obtain rfl := Option.some.inj (Table.final_row?.symm.trans (htop ▸ hrow))
    rcases hentry with ⟨t, ht⟩ | h
    · cases ht
    · cases h
  obtain ⟨stack, feed, last, lines⟩ := c
  obtain rfl : stack = top :: below := hstack
  cases hshifts : row.shifts <;> cases hreduction : row.reduction <;> cases feed <;>
    simp only [step, Nat.not_le.2 hroom, hfinal, hrow, hshifts, hreduction, if_false]

theorem step_shift {c : Configuration} {top : Frame} {below : List Frame} {lexeme : Lexeme}
    {rest : Feed} {state : Nat} (hstack : c.stack = top :: below)
    (hroom : c.stack.length < stackLimit) (hahead : c.feed.ahead? = some (lexeme, rest))
    (hnext : Table.next? top.state (.terminal lexeme.terminal) = some state) :
    c.step = .next ⟨⟨state, lexeme.text⟩ :: c.stack, rest, lexeme.text, c.lines⟩ := by
  obtain ⟨row, hrow, hshift⟩ := Option.bind_eq_some_iff.1 hnext
  change row.shift? lexeme.terminal = some state at hshift
  rw [step_of_row hstack hroom hrow (.inl ⟨lexeme.terminal, Option.isSome_of_eq_some hshift⟩)]
  split
  · next hshifts _ =>
    rw [TableRow.shift?, hshifts] at hshift
    cases hshift
  · obtain ⟨stack, feed, last, lines⟩ := c
    cases feed with
    | finish =>
      cases hahead
      simp only [act, hshift]
    | invalid byte => cases hahead
    | next lexeme rest =>
      cases hahead
      simp only [act, hshift]

theorem step_reduce {c : Configuration} {top : Frame} {below : List Frame} {row : TableRow}
    {lexeme : Lexeme} {rest : Feed} {production : Production} (hstack : c.stack = top :: below)
    (hroom : c.stack.length < stackLimit) (hahead : c.feed.ahead? = some (lexeme, rest))
    (hrow : Table.row? top.state = some row) (hreduction : row.reduction = some production)
    (hshift : row.shift? lexeme.terminal = none) :
    ∃ last, c.step = { c with last := last }.reduce production := by
  rw [step_of_row hstack hroom hrow (.inr (Option.isSome_of_eq_some hreduction))]
  split
  · next hproduction =>
    obtain rfl := Option.some.inj (hproduction.symm.trans hreduction)
    exact ⟨c.last, rfl⟩
  · obtain ⟨stack, feed, last, lines⟩ := c
    refine ⟨lexeme.text, ?_⟩
    cases feed with
    | finish =>
      cases hahead
      simp only [act, hshift, hreduction]
    | invalid byte => cases hahead
    | next lexeme rest =>
      cases hahead
      simp only [act, hshift, hreduction]

/-- Everything that a step can do. -/
inductive Effect (c : Configuration) : StepResult → Prop where
  | stuck : (∀ top below, c.stack = top :: below → Table.row? top.state = none) →
      Effect c (.halt .stuck)
  | full : stackLimit ≤ c.stack.length → Effect c (.halt (.stackFull c.last))
  | accept {top : Frame} {below : List Frame} :
      c.stack = top :: below → top.state = Table.final → Effect c (.halt .accepted)
  | invalid {byte : UInt8} : c.feed = .invalid byte → Effect c (.halt (.invalidByte byte))
  | misplaced {top : Frame} {below : List Frame} {lexeme : Lexeme} {rest : Feed} :
      c.stack = top :: below → c.feed.ahead? = some (lexeme, rest) →
      Table.next? top.state (.terminal lexeme.terminal) = none →
      Table.reduction? top.state = none → Effect c (.halt (.misplaced lexeme.text))
  | shift {top : Frame} {below : List Frame} {lexeme : Lexeme} {rest : Feed} {state : Nat} :
      c.stack = top :: below → c.feed.ahead? = some (lexeme, rest) →
      Table.next? top.state (.terminal lexeme.terminal) = some state →
      Effect c (.next ⟨⟨state, lexeme.text⟩ :: c.stack, rest, lexeme.text, c.lines⟩)
  | reduce {top : Frame} {below : List Frame} {production : Production} {last : Bytes}
      {result : StepResult} :
      c.stack = top :: below → Table.reduction? top.state = some production →
      (∀ lexeme rest, c.feed.ahead? = some (lexeme, rest) →
        Table.next? top.state (.terminal lexeme.terminal) = none) →
      { c with last := last }.reduce production = result → Effect c result

theorem act_effect {c : Configuration} {top : Frame} {below : List Frame} {row : TableRow}
    {lexeme : Lexeme} {rest : Feed} (hstack : c.stack = top :: below)
    (hrow : Table.row? top.state = some row) (hahead : c.feed.ahead? = some (lexeme, rest)) :
    Effect c (c.act row lexeme.terminal lexeme.text rest) := by
  have hnext : Table.next? top.state (.terminal lexeme.terminal) = row.shift? lexeme.terminal := by
    rw [Table.next?, hrow]
    rfl
  have hreduction : Table.reduction? top.state = row.reduction := by
    rw [Table.reduction?, hrow]
    rfl
  rw [act]
  split
  · next state hshift => exact .shift hstack hahead (hnext.trans hshift)
  · next hshift =>
    split
    · next production hproduction =>
      refine .reduce hstack (hreduction.trans hproduction) ?_ rfl
      intro first after hfirst
      obtain ⟨rfl, _⟩ := Prod.mk.inj (Option.some.inj (hahead.symm.trans hfirst))
      exact hnext.trans hshift
    · next hnone =>
      exact .misplaced hstack hahead (hnext.trans hshift) (hreduction.trans hnone)

theorem step_effect (c : Configuration) : Effect c c.step := by
  obtain ⟨stack, feed, last, lines⟩ := c
  cases stack with
  | nil => exact .stuck nofun
  | cons top below =>
    simp only [step]
    split
    · next hfull => exact .full hfull
    split
    · next hfinal => exact .accept rfl hfinal
    cases hrow : Table.row? top.state with
    | none =>
      refine .stuck ?_
      rintro _ _ ⟨⟩
      exact hrow
    | some row =>
      dsimp only
      split
      · next production hshifts hreduction =>
        refine .reduce rfl (Option.bind_eq_some_iff.2 ⟨row, hrow, hreduction⟩) ?_ rfl
        intro lexeme rest _
        rw [Table.next?, hrow]
        change row.shifts.lookup lexeme.terminal = none
        rw [hshifts]
        rfl
      · cases feed with
        | finish =>
          exact @act_effect ⟨top :: below, .finish, last, lines⟩ top below row ⟨.endOfInput, []⟩
            .finish rfl hrow rfl
        | invalid byte => exact .invalid rfl
        | next lexeme rest =>
          have hahead : (Feed.next lexeme rest).ahead? = some (lexeme, rest) := rfl
          exact act_effect rfl hrow hahead

theorem reduce_ne_accepted (c : Configuration) (production : Production) :
    c.reduce production ≠ .halt .accepted := by
  rw [reduce]
  split
  · nofun
  · split <;> nofun

theorem final_of_accepted {c : Configuration} (h : c.step = .halt .accepted) :
    ∃ top below, c.stack = top :: below ∧ top.state = Table.final := by
  have heffect := h ▸ c.step_effect
  cases heffect with
  | accept hstack htop => exact ⟨_, _, hstack, htop⟩
  | reduce _ _ _ hreduce => exact absurd hreduce (reduce_ne_accepted _ _)

/-- `Runs n c d`: the automaton comes from `c` to `d` in `n` steps. -/
inductive Runs : Nat → Configuration → Configuration → Prop where
  | refl (c : Configuration) : Runs 0 c c
  | head {n : Nat} {c d e : Configuration} : c.step = .next d → Runs n d e → Runs (n + 1) c e

namespace Runs

theorem single {c d : Configuration} (h : c.step = .next d) : Runs 1 c d :=
  .head h (.refl d)

theorem trans {m n : Nat} {c d e : Configuration} (hcd : Runs m c d) (hde : Runs n d e) :
    Runs (m + n) c e := by
  induction hcd with
  | refl c => rwa [Nat.zero_add]
  | head hstep _ ih =>
    rw [Nat.add_right_comm]
    exact .head hstep (ih hde)

theorem run_eq {n : Nat} {c d : Configuration} (h : Runs n c d) (k : Nat) :
    run (n + k) c = run k d := by
  induction h with
  | refl c => rw [Nat.zero_add]
  | head hstep _ ih =>
    rw [Nat.add_right_comm, run, hstep]
    exact ih

end Runs

theorem runs_of_run {n : Nat} {c : Configuration} (h : (run n c).1 ≠ .stuck) :
    ∃ k, Runs k c (run n c).2 ∧ (run n c).2.step = .halt (run n c).1 := by
  induction n generalizing c with
  | zero => exact absurd rfl h
  | succ n ih =>
    rw [run] at h ⊢
    cases hstep : c.step with
    | halt reason => exact ⟨0, .refl c, hstep⟩
    | next d =>
      rw [hstep] at h
      obtain ⟨k, hruns, hhalt⟩ := ih h
      exact ⟨k + 1, .head hstep hruns, hhalt⟩

end Configuration

end LevelScript.Checker

import LevelScript.Proofs.Checker.Acceptance
import LevelScript.Proofs.Checker.Progress

set_option autoImplicit false

namespace LevelScript.Checker

open Text (Bytes)
open LevelScript.Checker.Configuration (Runs)

/-- The place in its body of what the line of a production shows, and the terminal that stands
there. -/
def Production.shown? : Production → Option (Nat × Terminal)
  | .variableDeclaration | .assignment | .elementAssignment | .access => some (0, .identifier)
  | .functionDeclaration | .entityDeclaration => some (1, .identifier)
  | .actionGather | .actionUse | .lengthCall => some (2, .identifier)
  | .actionSay => some (2, .text)
  | .actionWait => some (2, .number)
  | .literalNumber => some (0, .number)
  | .literalText => some (0, .text)
  | _ => none

namespace Line

def plain : Line → Bool
  | .conditional | .loopUntil | .loopDuring | .result | .move | .attack | .array
  | .boolean _ => true
  | _ => false

/-- A line shows a name as it is, a text without its quotes and a number by its value. -/
def Shows (lexeme : Lexeme) : Line → Prop
  | .variable name | .function name | .entity name | .assignment name | .elementAssignment name
  | .gather name | .use name | .access name | .length name => lexeme = ⟨.identifier, name⟩
  | .say content | .text content =>
    lexeme.terminal = .text ∧ Lexeme.content lexeme.text = content
  | .wait count | .number count =>
    lexeme.terminal = .number ∧ Lexeme.number lexeme.text = count
  | .conditional | .loopUntil | .loopDuring | .result | .move | .attack | .array | .boolean _ =>
    False

end Line

namespace Production

theorem shown_place {production : Production} {k : Nat} {t : Terminal}
    (h : production.shown? = some (k, t)) : production.body[k]? = some (.terminal t) := by
  cases production <;> cases h <;> rfl

theorem line?_plain {production : Production} {texts : List Bytes} {line : Line}
    (h : production.shown? = none) (hline : production.line? texts = some line) :
    line.plain = true := by
  cases production <;> cases h <;> cases hline <;> rfl

theorem line?_shows {production : Production} {k : Nat} {t : Terminal} {texts : List Bytes}
    {text : Bytes} (h : production.shown? = some (k, t)) (htext : texts[k]? = some text) :
    ∃ line, production.line? texts = some line ∧ line.Shows ⟨t, text⟩ := by
  -- the first three texts are enough
  cases production <;> cases h <;> rcases texts with _ | ⟨_, _ | ⟨_, _ | ⟨_, _⟩⟩⟩ <;>
    cases htext <;> exact ⟨_, rfl, by simp [Line.Shows]⟩

/-- The line of a production shows nothing, or the text at its place in the body, which is that of
a lexeme among those that were read. -/
def Reports (production : Production) (read : List Lexeme) (texts : List Bytes) : Prop :=
  match production.shown? with
  | none => ∀ line, production.line? texts = some line → line.plain = true
  | some (k, t) => production.body[k]? = some (.terminal t) ∧
    ∃ text line, texts[k]? = some text ∧ ⟨t, text⟩ ∈ read ∧
      production.line? texts = some line ∧ line.Shows ⟨t, text⟩

end Production

theorem Parses.lexeme_at {symbols : List GrammarSymbol} {w : List Lexeme} {texts : List Bytes}
    {lines : List Line} {k : Nat} {t : Terminal} (h : Parses symbols w texts lines)
    (hk : symbols[k]? = some (.terminal t)) : ∃ text, texts[k]? = some text ∧ ⟨t, text⟩ ∈ w := by
  induction h generalizing k with
  | nil => cases hk
  | @terminal lexeme _ _ _ _ _ ih =>
    cases k with
    | zero =>
      cases hk
      exact ⟨lexeme.text, rfl, List.mem_cons_self⟩
    | succ k =>
      obtain ⟨text, htext, hmem⟩ := ih hk
      exact ⟨text, htext, List.mem_cons_of_mem _ hmem⟩
  | production _ _ _ ih =>
    cases k with
    | zero => cases hk
    | succ k =>
      obtain ⟨text, htext, hmem⟩ := ih hk
      exact ⟨text, htext, List.mem_append_right _ hmem⟩

theorem Parses.reports {production : Production} {w read : List Lexeme} {texts : List Bytes}
    {lines : List Line} (h : Parses production.body w texts lines) (hread : w ⊆ read) :
    production.Reports read texts := by
  rw [Production.Reports]
  cases hshown : production.shown? with
  | none => exact fun line hline => Production.line?_plain hshown hline
  | some place =>
    have hplace := Production.shown_place hshown
    obtain ⟨text, htext, hmem⟩ := h.lexeme_at hplace
    obtain ⟨line, hline, hshows⟩ := Production.line?_shows hshown htext
    exact ⟨hplace, text, line, htext, hread hmem, hline, hshows⟩

def Frame.symbol? (frame : Frame) : Option GrammarSymbol :=
  Table.symbol? frame.state

theorem Walks.spelled {base stack : List Frame} {symbols : List GrammarSymbol}
    {texts : List Bytes} (h : Walks base symbols texts stack) :
    ∃ frames, stack = frames ++ base ∧ frames.reverse.map Frame.symbol? = symbols.map some ∧
      frames.reverse.map Frame.text = texts := by
  induction h with
  | nil => exact ⟨[], rfl, rfl, rfl⟩
  | @cons top below _ _ _ text _ state hnext _ ih =>
    obtain ⟨frames, rfl, hsymbols, rfl⟩ := ih
    have hsymbol : Frame.symbol? ⟨state, text⟩ = some _ := Table.symbol?_of_next? hnext
    exact ⟨frames ++ [⟨state, text⟩], by simp, by simp [hsymbols, hsymbol], by simp⟩

/-- What a step does when `feed` is the whole input: the automaton halts, shifts the next lexeme, or
reduces a production. Then the frames that it takes off spell the body, another one is below them,
and the state that it puts there has the head for its symbol. -/
inductive Matched (feed : Feed) (c : Configuration) : StepResult → Prop where
  | halted {reason : Halt} : reason ≠ .stuck → Matched feed c (.halt reason)
  | shifted {lexeme : Lexeme} {rest : Feed} {state : Nat} :
      c.feed.ahead? = some (lexeme, rest) →
      Table.symbol? state = some (.terminal lexeme.terminal) →
      Matched feed c (.next ⟨⟨state, lexeme.text⟩ :: c.stack, rest, lexeme.text, c.lines⟩)
  | reduced {production : Production} {frames below : List Frame} {base : Frame} {state : Nat}
      {last : Bytes} {read : List Lexeme} {d : Configuration} :
      { c with last := last }.reduce production = .next d →
      c.stack = frames ++ base :: below →
      frames.reverse.map Frame.symbol? = production.body.map some →
      d.stack = ⟨state, []⟩ :: base :: below →
      Table.symbol? state = some (.nonterminal production.head) →
      feed = .after read c.feed →
      d.lines = (production.line? (frames.reverse.map Frame.text)).toList ++ c.lines →
      production.Reports read (frames.reverse.map Frame.text) → Matched feed c (.next d)

theorem Walks.matched {feed : Feed} {c : Configuration} {symbols : List GrammarSymbol}
    {texts : List Bytes} {top : Frame} {below : List Frame} {read : List Lexeme}
    {production : Production} (hfeed : feed = .after read c.feed)
    (hwalks : Walks [⟨Table.start, []⟩] symbols texts c.stack)
    (hparses : Parses symbols read texts c.lines.reverse) (hstack : c.stack = top :: below)
    (hreduction : Table.reduction? top.state = some production) (last : Bytes) :
    Matched feed c ({ c with last := last }.reduce production) := by
  obtain ⟨before, s, t, base, rest, state, rfl, rfl, hbefore, hbody, hnext, hreduced⟩ :=
    Configuration.exists_of_reduction hwalks hstack hreduction
  obtain ⟨a, b, s', t', _, _, rfl, htexts, _, _, hparsed⟩ := hparses.split
  obtain ⟨rfl, rfl⟩ :=
    List.append_inj' htexts (hbody.length_texts.trans hparsed.length_texts.symm)
  obtain ⟨frames, hframes, hsymbols, rfl⟩ := hbody.spelled
  have hreports := hparsed.reports (List.subset_append_right a b)
  rw [hreduced last]
  exact .reduced (hreduced last) hframes hsymbols rfl (Table.symbol?_of_next? hnext) hfeed rfl
    hreports

theorem Invariant.matched {feed : Feed} {n : Nat} {c : Configuration} (h : Invariant feed n c) :
    Matched feed c c.step := by
  have hstuck := h.step_ne_stuck
  have heffect := c.step_effect
  generalize c.step = result at hstuck heffect
  cases heffect with
  | stuck => exact absurd rfl hstuck
  | full | accept | invalid | misplaced => exact .halted nofun
  | shift _ hahead hnext => exact .shifted hahead (Table.symbol?_of_next? hnext)
  | @reduce _ _ _ last _ hstack hreduction _ hreduce =>
    rw [← hreduce]
    cases h with
    | finished _ hframes htop _ _ =>
      obtain ⟨rfl, _⟩ := List.cons_eq_cons.1 (hframes.symm.trans hstack)
      cases Table.final_reduction?.symm.trans (htop ▸ hreduction)
    | reading hfeed hwalks hparses _ =>
      exact hwalks.matched hfeed hparses hstack hreduction last

/-- On every feed the automaton halts, which gives the verdict, after a number of steps that is
linear in the lexemes. Each step that it makes until then is matched by what stands on its stack. -/
theorem steps_matched (feed : Feed) :
    (∃ n c, Runs n (.start feed) c ∧ c.step = .halt (Verdict.ofFeed feed).halt ∧
        (Verdict.ofFeed feed).lines = c.lines.reverse) ∧
      ∀ n c, Runs n (.start feed) c → n ≤ 64 * feed.length + 2 ∧ Matched feed c c.step := by
  refine ⟨Verdict.runs_of_ofFeed (Verdict.halt_ne_stuck feed), fun n c hruns => ?_⟩
  have hinvariant := (Invariant.init feed).runs hruns
  rw [Nat.zero_add] at hinvariant
  exact ⟨hinvariant.steps_le, hinvariant.matched⟩

/-- In `x=1)` the number is reduced and reported before the parenthesis is found misplaced. -/
theorem misplaced_steps_matched :
    ∃ feed c d, feed = Feed.ofLexemes [⟨.identifier, [120]⟩, ⟨.symbol .assign, [61]⟩,
        ⟨.number, [49]⟩, ⟨.symbol .rightParen, [41]⟩] ∧
      Runs 4 (.start feed) c ∧ c.step = .next d ∧ d.lines = [.number 1] ∧
      4 ≤ 64 * feed.length + 2 ∧ Matched feed c (.next d) := by
  let before : List Frame := [⟨1, []⟩, ⟨0, []⟩]
  let closing := Feed.ofLexemes [⟨.symbol .rightParen, [41]⟩]
  let number := Feed.next ⟨.number, [49]⟩ closing
  let assign := Feed.next ⟨.symbol .assign, [61]⟩ number
  let feed := Feed.next ⟨.identifier, [120]⟩ assign
  have hprogram : (Configuration.start feed).step = .next ⟨before, feed, [], []⟩ := by
    decide +kernel
  have hname : Configuration.step ⟨before, feed, [], []⟩ =
      .next ⟨⟨3, [120]⟩ :: before, assign, [120], []⟩ := by
    decide +kernel
  have hassign : Configuration.step ⟨⟨3, [120]⟩ :: before, assign, [120], []⟩ =
      .next ⟨⟨28, [61]⟩ :: ⟨3, [120]⟩ :: before, number, [61], []⟩ := by
    decide +kernel
  have hnumber : Configuration.step ⟨⟨28, [61]⟩ :: ⟨3, [120]⟩ :: before, number, [61], []⟩ =
      .next ⟨⟨37, [49]⟩ :: ⟨28, [61]⟩ :: ⟨3, [120]⟩ :: before, closing, [49], []⟩ := by
    decide +kernel
  have hreduced : Configuration.step
        ⟨⟨37, [49]⟩ :: ⟨28, [61]⟩ :: ⟨3, [120]⟩ :: before, closing, [49], []⟩ =
      .next ⟨⟨53, []⟩ :: ⟨28, [61]⟩ :: ⟨3, [120]⟩ :: before, closing, [49], [.number 1]⟩ := by
    decide +kernel
  have hruns := Runs.head hprogram (.head hname (.head hassign (.single hnumber)))
  obtain ⟨hsteps, hmatched⟩ := (steps_matched feed).2 4 _ hruns
  rw [hreduced] at hmatched
  exact ⟨feed, _, _, rfl, hruns, hreduced, rfl, hsteps, hmatched⟩

end LevelScript.Checker

import LevelScript.Proofs.Checker.Acceptance
import LevelScript.Proofs.Checker.Progress
import LevelScript.Proofs.Checker.Tree

set_option autoImplicit false

/-!
# What is rejected

The automaton halts at the first lexeme with which no program goes on. What it read before can be
completed to a program. What it did until then does not depend on what comes after the lexeme, so
that a program with the lexeme at this place would have been rejected too.
-/

namespace LevelScript.Checker

open Text (Bytes encodeUtf8)
open LevelScript.Checker.Configuration (Runs stackLimit)

namespace Configuration

theorem length_stack_lt {c : Configuration} (h : ∀ text, c.step ≠ .halt (.stackFull text)) :
    c.stack.length < stackLimit := by
  by_contra hfull
  obtain ⟨stack, feed, last, lines⟩ := c
  cases stack with
  | nil => exact hfull (Nat.zero_lt_succ _)
  | cons top below =>
    refine h last ?_
    simp only [step, Nat.not_lt.1 hfull, if_true]

theorem reduce_halt {c : Configuration} {production : Production} {reason : Halt}
    (h : c.reduce production = .halt reason) : reason = .stuck := by
  rw [reduce] at h
  split at h
  · cases h
    rfl
  · split at h
    · cases h
      rfl
    · cases h

theorem reduce_next {c d : Configuration} {production : Production}
    (h : c.reduce production = .next d) :
    d.feed = c.feed ∧ ∀ feed last, { c with feed := feed, last := last }.reduce production =
      .next { d with feed := feed, last := last } := by
  rw [reduce] at h
  split at h
  · cases h
  · next hdrop =>
    split at h
    · cases h
    · next hgoto =>
      cases h
      exact ⟨rfl, fun feed last => by simp only [reduce, hdrop, hgoto]⟩

theorem halted {c : Configuration} {reason : Halt} (h : c.step = .halt reason)
    (hstuck : reason ≠ .stuck) (haccepted : reason ≠ .accepted)
    (hfull : ∀ text, reason ≠ .stackFull text) :
    (∃ byte, c.feed = .invalid byte ∧ reason = .invalidByte byte) ∨
      ∃ top below lexeme rest, c.stack = top :: below ∧ c.feed.ahead? = some (lexeme, rest) ∧
        Table.next? top.state (.terminal lexeme.terminal) = none ∧
        Table.reduction? top.state = none ∧ reason = .misplaced lexeme.text := by
  have heffect := h ▸ c.step_effect
  cases heffect with
  | stuck _ => exact absurd rfl hstuck
  | full _ => exact absurd rfl (hfull c.last)
  | accept _ _ => exact absurd rfl haccepted
  | invalid hfeed => exact .inl ⟨_, hfeed, rfl⟩
  | misplaced hstack hahead hnext hreduction =>
    exact .inr ⟨_, _, _, _, hstack, hahead, hnext, hreduction, rfl⟩
  | reduce _ _ _ hreduce => exact absurd (reduce_halt hreduce) hstuck

theorem Runs.to_halted {m n : Nat} {c d e : Configuration} {reason : Halt} (hd : Runs n c d)
    (hhalt : d.step = .halt reason) (he : Runs m c e) : ∃ k, Runs k e d := by
  induction he generalizing n with
  | refl c => exact ⟨n, hd⟩
  | head hstep _ ih =>
    cases hd with
    | refl => cases hhalt.symm.trans hstep
    | head hfirst hrest =>
      cases hfirst.symm.trans hstep
      exact ih hrest

theorem Runs.halt_eq {m n : Nat} {c d e : Configuration} {reason other : Halt} (hd : Runs n c d)
    (hhalt : d.step = .halt reason) (he : Runs m c e) (hother : e.step = .halt other) :
    reason = other := by
  obtain ⟨k, hrest⟩ := hd.to_halted hhalt he
  cases hrest with
  | refl => exact StepResult.halt.inj (hhalt.symm.trans hother)
  | head hnext _ => cases hnext.symm.trans hother

/-- What is done before a lexeme is read is done whatever comes after it. -/
theorem Runs.before {n : Nat} {c d : Configuration} {x : Lexeme} {rest : Feed} (h : Runs n c d)
    (hd : d.feed = .next x rest) :
    ∃ v, c.feed = .after v (.next x rest) ∧ ∀ other last, ∃ last',
      Runs n ⟨c.stack, .after v (.next x other), last, c.lines⟩
        ⟨d.stack, .next x other, last', d.lines⟩ := by
  induction h with
  | refl c => exact ⟨[], hd, fun other last => ⟨last, .refl _⟩⟩
  | @head n c e d hstep _ ih =>
    obtain ⟨v, hfeed, hother⟩ := ih hd
    have hroom : c.stack.length < stackLimit :=
      length_stack_lt fun text hfull => by cases hstep.symm.trans hfull
    have heffect := hstep ▸ c.step_effect
    cases heffect with
    | @shift top below lexeme _ state hstack hahead hnext =>
      have hread : c.feed = .next lexeme (.after v (.next x rest)) := by
        cases hbefore : c.feed with
        | finish =>
          rw [hbefore] at hahead
          cases hahead
          cases v <;> cases hfeed
        | invalid byte =>
          rw [hbefore] at hahead
          cases hahead
        | next first more =>
          rw [hbefore] at hahead
          cases hahead
          exact congrArg (Feed.next lexeme) hfeed
      refine ⟨lexeme :: v, hread, fun other last => ?_⟩
      obtain ⟨last', hruns⟩ := hother other lexeme.text
      have hfirst := @step_shift ⟨c.stack, .next lexeme (.after v (.next x other)), last, c.lines⟩
        top below lexeme _ state hstack hroom rfl hnext
      exact ⟨last', .head hfirst hruns⟩
    | @reduce top below production _ _ hstack hreduction hnone hreduce =>
      obtain ⟨hsame, hfolds⟩ := reduce_next hreduce
      have hread : c.feed = .after v (.next x rest) := hsame.symm.trans hfeed
      refine ⟨v, hread, fun other last => ?_⟩
      obtain ⟨row, hrow, hproduction⟩ := Option.bind_eq_some_iff.1 hreduction
      -- the same lexeme stands next in both feeds
      obtain ⟨first, more, more', hahead, hahead'⟩ :
          ∃ first more more', c.feed.ahead? = some (first, more) ∧
            (Feed.after v (.next x other)).ahead? = some (first, more') := by
        rw [hread]
        cases v with
        | nil => exact ⟨x, rest, other, rfl, rfl⟩
        | cons first v => exact ⟨first, _, _, rfl, rfl⟩
      have hshift : row.shift? first.terminal = none := by
        have hnext := hnone first more hahead
        rw [Table.next?, hrow] at hnext
        exact hnext
      obtain ⟨last₁, hfirst⟩ := @step_reduce ⟨c.stack, .after v (.next x other), last, c.lines⟩
        top below row first more' production hstack hroom hahead' hrow hproduction hshift
      obtain ⟨last', hruns⟩ := hother other last₁
      exact ⟨last', .head (hfirst.trans (hfolds _ last₁)) hruns⟩

end Configuration

theorem roomy_of_halted {n : Nat} {c d : Configuration} {reason : Halt} (hruns : Runs n c d)
    (hhalt : d.step = .halt reason) (hfull : ∀ text, reason ≠ .stackFull text) : Roomy c := by
  intro m e he
  obtain ⟨k, hrest⟩ := hruns.to_halted hhalt he
  refine Configuration.length_stack_lt fun text hstep => ?_
  cases hrest with
  | refl => exact hfull text (StepResult.halt.inj (hhalt.symm.trans hstep))
  | head hnext _ => cases hnext.symm.trans hstep

theorem notMem_language_of_halted {w : List Lexeme} {n : Nat} {d : Configuration} {reason : Halt}
    (hruns : Runs n (.start (.ofLexemes w)) d) (hhalt : d.step = .halt reason)
    (haccepted : reason ≠ .accepted) (hfull : ∀ text, reason ≠ .stackFull text) :
    w.map Lexeme.terminal ∉ grammar.language := by
  rw [mem_language_iff_parses]
  rintro ⟨texts, lines, hparses⟩
  have hverdict := accepted_of_parses hparses (roomy_of_halted hruns hhalt hfull)
  obtain ⟨m, e, he, haccept⟩ := Verdict.runs_of_accepted hverdict
  exact haccepted (hruns.halt_eq hhalt he haccept)

theorem Invariant.step_misplaced {feed rest : Feed} {n : Nat} {c : Configuration} {top : Frame}
    {below : List Frame} {lexeme : Lexeme} (h : Invariant feed n c)
    (hroom : c.stack.length < stackLimit) (hstack : c.stack = top :: below)
    (hfinal : top.state ≠ Table.final) (hahead : c.feed.ahead? = some (lexeme, rest))
    (hnext : Table.next? top.state (.terminal lexeme.terminal) = none)
    (hreduction : Table.reduction? top.state = none) :
    c.step = .halt (.misplaced lexeme.text) := by
  have hstuck := h.step_ne_stuck
  have heffect := c.step_effect
  generalize c.step = result at hstuck heffect
  cases heffect with
  | stuck _ => exact absurd rfl hstuck
  | full hfull => exact absurd hroom (Nat.not_lt.2 hfull)
  | accept hframes htop =>
    obtain ⟨rfl, _⟩ := List.cons_eq_cons.1 (hstack.symm.trans hframes)
    exact absurd htop hfinal
  | invalid hfeed =>
    rw [hfeed] at hahead
    cases hahead
  | misplaced _ hahead' _ _ =>
    cases hahead'.symm.trans hahead
    rfl
  | shift hframes hahead' hshift =>
    obtain ⟨rfl, _⟩ := List.cons_eq_cons.1 (hstack.symm.trans hframes)
    cases hahead'.symm.trans hahead
    cases hnext.symm.trans hshift
  | reduce hframes hproduction _ _ =>
    obtain ⟨rfl, _⟩ := List.cons_eq_cons.1 (hstack.symm.trans hframes)
    cases hreduction.symm.trans hproduction

/-- No sentence goes on with a lexeme that has no place. -/
theorem notMem_language_of_misplaced {u : List Lexeme} {x : Lexeme} {rest : Feed} {n : Nat}
    {d : Configuration} {top : Frame} {below : List Frame}
    (hruns : Runs n (.start (.after u (.next x rest))) d) (hfeed : d.feed = .next x rest)
    (hroom : d.stack.length < stackLimit) (hstack : d.stack = top :: below)
    (hfinal : top.state ≠ Table.final)
    (hnext : Table.next? top.state (.terminal x.terminal) = none)
    (hreduction : Table.reduction? top.state = none) (more : List Terminal) :
    u.map Lexeme.terminal ++ x.terminal :: more ∉ grammar.language := by
  let tail : List Lexeme := more.map fun t => ⟨t, []⟩
  have hterminals : (u ++ x :: tail).map Lexeme.terminal =
      u.map Lexeme.terminal ++ x.terminal :: more := by
    simp [tail, Function.comp_def]
  -- the automaton comes to the same stack on the sentence, where the lexeme has no place either
  obtain ⟨v, hv, hsame⟩ := hruns.before hfeed
  obtain rfl := Feed.after_injective hv
  obtain ⟨last, hother⟩ := hsame (.ofLexemes tail) []
  have hsentence : Feed.after u (.next x (.ofLexemes tail)) = .ofLexemes (u ++ x :: tail) :=
    (Feed.after_append u (x :: tail) .finish).symm
  rw [hsentence] at hother
  have hhalt := ((Invariant.init _).runs hother).step_misplaced hroom hstack hfinal rfl hnext
    hreduction
  rw [← hterminals]
  exact notMem_language_of_halted hother hhalt nofun nofun

theorem Invariant.completed {feed : Feed} {n : Nat} {c : Configuration} {top : Frame}
    {below : List Frame} (h : Invariant feed n c) (hstack : c.stack = top :: below)
    (hfinal : top.state ≠ Table.final) :
    ∃ u, feed = .after u c.feed ∧ ∃ (tree : Tree) (v : List Lexeme) (more : List Line),
      tree.OfProgram ∧ tree.lexemes = u ++ v ∧ tree.lines = c.lines.reverse ++ more := by
  cases h with
  | finished _ hframes htop _ _ =>
    obtain ⟨rfl, _⟩ := List.cons_eq_cons.1 (hstack.symm.trans hframes)
    exact absurd htop hfinal
  | @reading _ _ u hfeed hwalks hparses _ =>
    obtain ⟨v, _, more, hprogram⟩ := (hstack ▸ hwalks).completed hparses hfinal
    obtain ⟨tree, htree, hlexemes, hlines⟩ := hprogram.tree
    exact ⟨u, hfeed, tree, v, more, htree, hlexemes, hlines⟩

theorem Verdict.runs_of_rejected {feed : Feed} (haccepted : (Verdict.ofFeed feed).halt ≠ .accepted)
    (hfull : ∀ text, (Verdict.ofFeed feed).halt ≠ .stackFull text) :
    ∃ n c top below, Runs n (.start feed) c ∧ c.step = .halt (Verdict.ofFeed feed).halt ∧
      (Verdict.ofFeed feed).lines = c.lines.reverse ∧ c.stack.length < stackLimit ∧
      c.stack = top :: below ∧ top.state ≠ Table.final := by
  have hstuck := Verdict.halt_ne_stuck feed
  obtain ⟨n, c, hruns, hhalt, hlines⟩ := Verdict.runs_of_ofFeed hstuck
  have hroom : c.stack.length < stackLimit :=
    Configuration.length_stack_lt fun text hstep =>
      hfull text (StepResult.halt.inj (hhalt.symm.trans hstep))
  cases hstack : c.stack with
  | nil =>
    have hempty : c.step = .halt .stuck := by
      rw [Configuration.step, hstack]
    exact absurd (StepResult.halt.inj (hhalt.symm.trans hempty)) hstuck
  | cons top below =>
    refine ⟨n, c, top, below, hruns, hhalt, hlines, hstack ▸ hroom, hstack, fun htop => ?_⟩
    have haccept := Configuration.step_accept hstack htop hroom
    exact haccepted (StepResult.halt.inj (hhalt.symm.trans haccept))

theorem Verdict.says_misplaced {verdict : Verdict} {text : Bytes}
    (h : verdict.halt = .misplaced text) :
    verdict.complaints = printed [complaint "syntax error" text] ∧
      verdict.output = printed ([encodeUtf8 "Iniciando análise do arquivo..."] ++
        verdict.lines.map Line.bytes ++ [encodeUtf8 "Falha na análise sintática."]) := by
  rw [complaints, output, h]
  exact ⟨rfl, rfl⟩

theorem Verdict.says_full {verdict : Verdict} {text : Bytes} (h : verdict.halt = .stackFull text) :
    verdict.complaints = printed [complaint "memory exhausted" text] ∧
      verdict.output = printed ([encodeUtf8 "Iniciando análise do arquivo..."] ++
        verdict.lines.map Line.bytes ++ [encodeUtf8 "Falha na análise sintática."]) := by
  rw [complaints, output, h]
  exact ⟨rfl, rfl⟩

theorem Verdict.says_invalid {verdict : Verdict} {byte : UInt8}
    (h : verdict.halt = .invalidByte byte) :
    verdict.complaints =
        printed [encodeUtf8 "Erro léxico: caractere inválido '" ++ [byte] ++ encodeUtf8 "'"] ∧
      verdict.output = printed ([encodeUtf8 "Iniciando análise do arquivo..."] ++
        verdict.lines.map Line.bytes) := by
  rw [complaints, output, h]
  exact ⟨rfl, congrArg printed (List.append_nil _)⟩

/-- The automaton reports the first error. Unless its stack is full, what is not accepted is
rejected at a lexeme, at the end of the input or at a byte that begins nothing. What was read before
it begins a program, and the lines reported begin those of the program's tree. No sentence goes on
with the lexeme, and at the end of the input what was read is no sentence. There is one complaint,
and the failure is stated except for a byte that begins nothing. -/
theorem first_error_reported (bytes : Bytes) (haccepted : (Verdict.ofBytes bytes).halt ≠ .accepted)
    (hfull : ∀ text, (Verdict.ofBytes bytes).halt ≠ .stackFull text) :
    let verdict := Verdict.ofBytes bytes
    let report := [encodeUtf8 "Iniciando análise do arquivo..."] ++ verdict.lines.map Line.bytes
    let failure := encodeUtf8 "Falha na análise sintática."
    ∃ u rest, Feed.ofBytes bytes = .after u rest ∧
      (∃ (tree : Tree) (v : List Lexeme) (more : List Line), tree.OfProgram ∧
        tree.lexemes = u ++ v ∧ tree.lines = verdict.lines ++ more) ∧
      verdict.exitCode = 1 ∧
      match rest with
      | .next x _ =>
        (∀ more, u.map Lexeme.terminal ++ x.terminal :: more ∉ grammar.language) ∧
          verdict.halt = .misplaced x.text ∧
          verdict.complaints = Verdict.printed [Verdict.complaint "syntax error" x.text] ∧
          verdict.output = Verdict.printed (report ++ [failure])
      | .finish =>
        u.map Lexeme.terminal ∉ grammar.language ∧ verdict.halt = .misplaced [] ∧
          verdict.complaints = Verdict.printed [Verdict.complaint "syntax error" []] ∧
          verdict.output = Verdict.printed (report ++ [failure])
      | .invalid byte =>
        verdict.halt = .invalidByte byte ∧
          verdict.complaints = Verdict.printed
            [encodeUtf8 "Erro léxico: caractere inválido '" ++ [byte] ++ encodeUtf8 "'"] ∧
          verdict.output = Verdict.printed report := by
  intro verdict report failure
  obtain ⟨n, c, top, below, hruns, hhalt, hlines, hroom, hstack, hfinal⟩ :=
    Verdict.runs_of_rejected haccepted hfull
  have hinvariant := (Invariant.init (.ofBytes bytes)).runs hruns
  obtain ⟨u, hfeed, tree, v, more, htree, hlexemes, hreport⟩ :=
    hinvariant.completed hstack hfinal
  have hstuck : verdict.halt ≠ .stuck := Verdict.halt_ne_stuck (.ofBytes bytes)
  have hexit : verdict.exitCode = 1 := by
    rw [Verdict.exitCode, if_neg haccepted]
  refine ⟨u, c.feed, hfeed, ⟨tree, v, more, htree, hlexemes, hlines ▸ hreport⟩, hexit, ?_⟩
  rcases Configuration.halted hhalt hstuck haccepted hfull with
    ⟨byte, hbyte, hreason⟩ |
    ⟨top', below', lexeme, rest, hframes, hahead, hnext, hreduction, hreason⟩
  · rw [hbyte]
    exact ⟨hreason, Verdict.says_invalid hreason⟩
  obtain ⟨rfl, rfl⟩ := List.cons_eq_cons.1 (hstack.symm.trans hframes)
  have hsaid := Verdict.says_misplaced hreason
  cases hrest : c.feed with
  | finish =>
    rw [hrest] at hahead hfeed
    cases hahead
    have hnone : u.map Lexeme.terminal ∉ grammar.language :=
      notMem_language_of_halted (hfeed ▸ hruns) hhalt haccepted hfull
    exact ⟨hnone, hreason, hsaid⟩
  | invalid byte =>
    rw [hrest] at hahead
    cases hahead
  | next x after =>
    rw [hrest] at hahead hfeed
    cases hahead
    have hnone := notMem_language_of_misplaced (hfeed ▸ hruns) hrest hroom hstack hfinal hnext
      hreduction
    exact ⟨hnone, hreason, hsaid⟩

/-- The bytes of `x=1` end too early. The number has been reported by then. -/
theorem unfinished_assignment_reported :
    let verdict := Verdict.ofBytes [120, 61, 49]
    verdict.halt ≠ .accepted ∧ (∀ text, verdict.halt ≠ .stackFull text) ∧
      verdict.lines = [.number 1] ∧ verdict.exitCode = 1 ∧
      [.identifier, .symbol .assign, .number] ∉ grammar.language ∧
      verdict.complaints = Verdict.printed [Verdict.complaint "syntax error" []] := by
  intro verdict
  have hverdict : verdict = ⟨.misplaced [], [.number 1]⟩ := by decide +kernel
  have hfeed : Feed.ofBytes [120, 61, 49] =
      .ofLexemes [⟨.identifier, [120]⟩, ⟨.symbol .assign, [61]⟩, ⟨.number, [49]⟩] := by
    decide +kernel
  have haccepted : verdict.halt ≠ .accepted := by
    rw [hverdict]
    nofun
  have hfull : ∀ text, verdict.halt ≠ .stackFull text := by
    rw [hverdict]
    nofun
  obtain ⟨u, rest, hsplit, _, hexit, hcase⟩ :=
    first_error_reported [120, 61, 49] haccepted hfull
  refine ⟨haccepted, hfull, by rw [hverdict], hexit, ?_⟩
  have hread := hfeed.symm.trans hsplit
  have hhalt : verdict.halt = .misplaced [] := by rw [hverdict]
  rcases u with _ | ⟨first, _ | ⟨second, _ | ⟨third, _ | ⟨fourth, u⟩⟩⟩⟩
  · cases hread
    cases hcase.2.1.symm.trans hhalt
  · cases hread
    cases hcase.2.1.symm.trans hhalt
  · cases hread
    cases hcase.2.1.symm.trans hhalt
  · cases hread
    exact ⟨hcase.1, hcase.2.2.1⟩
  · cases hread

end LevelScript.Checker

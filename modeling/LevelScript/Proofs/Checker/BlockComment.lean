import LevelScript.Proofs.Checker.Feed
import LevelScript.Proofs.Checker.Rejection
import LevelScript.Proofs.Checker.Unambiguity

set_option autoImplicit false

namespace LevelScript.Checker

open Text (Bytes encodeUtf8)
open Pattern (byte newline backslash quote Takes)

namespace Pattern

theorem begins_of_mem {pattern : Pattern} {b : UInt8} {text : Bytes}
    (h : b :: text ∈ pattern.language) : pattern.begins b = true := by
  have hmeasures := pattern.measures_longest? (b :: text)
  cases hlongest : pattern.longest? (b :: text) with
  | none =>
    rw [hlongest] at hmeasures
    exact absurd h (hmeasures _ (List.prefix_refl _))
  | some m => exact begins_of_longest? hlongest

theorem ne_of_comment {pattern : Pattern} (h : pattern = .lineComment ∨ pattern = .blockComment) :
    pattern ≠ .blanks ∧ pattern ≠ .anyByte ∧ pattern.terminal? = none := by
  rcases h with rfl | rfl <;> decide

theorem ne_of_terminal? {pattern : Pattern} {terminal : Terminal}
    (h : pattern.terminal? = some terminal) : pattern ≠ .blanks ∧ pattern ≠ .anyByte := by
  constructor <;> rintro rfl <;> cases h

theorem nil_of_append_mem_quotedRest {u v : Bytes} (hu : u ∈ quotedRest)
    (huv : u ++ v ∈ quotedRest) : v = [] := by
  induction hlength : u.length using Nat.strongRecOn generalizing u with
  | ind n ih =>
    rcases mem_quotedRest.1 hu with rfl | ⟨t, ht, ⟨b, hb, rfl⟩ | ⟨c, hc, rfl⟩⟩
    · exact (quote_cons_mem_quotedRest v).1 huv
    · exact ih t.length (by rw [← hlength, List.length_cons]; omega) ht
        ((plain_cons_mem_quotedRest hb _).1 huv) rfl
    · have hrest := (backslash_cons_mem_quotedRest _).1 huv
      exact ih t.length (by rw [← hlength, List.length_cons, List.length_cons]; omega) ht
        (cons_mem_one_mul.1 hrest).2 rfl

theorem cons_mem_quoted {text : Bytes} : quote :: text ∈ quoted.language ↔ text ∈ quotedRest := by
  rw [language, mem_text_mul]
  constructor
  · rintro ⟨v, hv, h⟩
    cases h
    exact hv
  · exact fun h => ⟨text, h, rfl⟩

theorem newline_notMem_comment {pattern : Pattern} {text : Bytes}
    (hpattern : pattern = .lineComment ∨ pattern = .blockComment) (h : text ∈ pattern.language) :
    newline ∉ text := by
  rcases hpattern with rfl | rfl
  · obtain ⟨v, hv, rfl⟩ := mem_text_mul.1 h
    rw [List.mem_append, not_or]
    exact ⟨by decide, fun hmem => absurd (mem_kstar_one.1 hv _ hmem) (by decide)⟩
  · obtain ⟨v, hv, rfl⟩ := mem_text_mul.1 h
    rw [List.mem_append, not_or]
    exact ⟨by decide, fun hmem => absurd ((mem_commentRest.1 hv).1 _ hmem) (by decide)⟩

/-- Only blanks, comments and quoted texts have a blank among other bytes. -/
theorem eq_of_blank_mem {pattern : Pattern} {b : UInt8} {u v : Bytes}
    (h : b :: (u ++ byte ' ' :: v) ∈ pattern.language) :
    pattern = .blanks ∨ (pattern = .lineComment ∨ pattern = .blockComment) ∨
      pattern = .quoted := by
  have hblank : byte ' ' ∈ u ++ byte ' ' :: v := List.mem_append_right _ List.mem_cons_self
  cases pattern with
  | blanks => exact .inl rfl
  | lineComment => exact .inr (.inl (.inl rfl))
  | blockComment => exact .inr (.inl (.inr rfl))
  | quoted => exact .inr (.inr rfl)
  | word keyword =>
    have hmem : byte ' ' ∈ encodeUtf8 keyword.spelling :=
      mem_text.1 h ▸ List.mem_cons_of_mem b hblank
    exact absurd hmem (by cases keyword <;> decide)
  | mark symbol =>
    have hmem : byte ' ' ∈ symbol.chars.map byte := mem_text.1 h ▸ List.mem_cons_of_mem b hblank
    exact absurd hmem (by cases symbol <;> decide)
  | name =>
    have hname := mem_kstar_nameByte.1 (cons_mem_one_mul.1 h).2 _ hblank
    exact absurd hname (by decide)
  | digits =>
    have hdigit := mem_kstar_one.1 (cons_mem_one_mul.1 h).2 _ hblank
    exact absurd hdigit (by decide)
  | anyByte =>
    obtain ⟨_, _, hone⟩ := h
    cases (List.cons_eq_cons.1 hone).2 ▸ hblank

theorem mem_of_begins {pattern : Pattern} {b : UInt8} {patterns : List Pattern}
    (h : all.filter (fun q => q.begins b) = patterns) (hb : pattern.begins b = true) :
    pattern ∈ patterns :=
  h ▸ List.mem_filter.2 ⟨mem_all pattern, hb⟩

theorem begins_blank {pattern : Pattern} {b : UInt8} (hb : isBlank b = true)
    (h : pattern.begins b = true) : pattern = .blanks ∨ pattern = .anyByte := by
  have hblanks : all.filter (fun q => q.begins b) = [.blanks, .anyByte] := by
    simp only [isBlank, newline, Bool.or_eq_true, beq_iff_eq] at hb
    rcases hb with ((rfl | rfl) | rfl) | rfl <;> rfl
  simpa using mem_of_begins hblanks h

theorem begins_slash {pattern : Pattern} (h : pattern.begins (byte '/') = true) :
    pattern = .mark .divide ∨ (pattern = .lineComment ∨ pattern = .blockComment) ∨
      pattern = .anyByte := by
  have hslashes : all.filter (fun q => q.begins (byte '/')) =
      [.mark .divide, .lineComment, .blockComment, .anyByte] := rfl
  simpa [or_assoc] using mem_of_begins hslashes h

theorem begins_backslash {pattern : Pattern} (h : pattern.begins backslash = true) :
    pattern = .anyByte := by
  have hothers : all.filter (fun q => q.begins backslash) = [.anyByte] := rfl
  simpa using mem_of_begins hothers h

theorem begins_quote {pattern : Pattern} (h : pattern.begins quote = true) :
    pattern = .quoted ∨ pattern = .anyByte := by
  have hquotes : all.filter (fun q => q.begins quote) = [.quoted, .anyByte] := rfl
  simpa using mem_of_begins hquotes h

/-- A comment that would go on over the blank after a match is none: if the match is a slash, what
comes after it does not go on with a comment, and if it is a comment, its line ends before. -/
theorem not_comment_of_takes {pattern q : Pattern} {b : UInt8} {text rest v x : Bytes}
    (h : Takes language pattern (b :: text) (rest ++ v)) (hany : pattern ≠ .anyByte)
    (hline : pattern.terminal? = none → newline ∈ rest) (hrest : rest.head? ≠ some backslash)
    (hq : q = .lineComment ∨ q = .blockComment) :
    b :: (text ++ rest ++ byte ' ' :: x) ∉ q.language := by
  intro hmem
  have hnewline := newline_notMem_comment hq hmem
  have hb : b = byte '/' := by
    have hbegins := begins_of_mem hmem
    rcases hq with rfl | rfl <;> simpa [begins] using hbegins
  subst hb
  rcases begins_slash (begins_of_mem h.mem) with rfl | hcomment | rfl
  · -- the slash alone was taken
    obtain ⟨_, rfl⟩ := List.cons_eq_cons.1 (mem_text.1 h.mem)
    rcases hq with rfl | rfl <;> obtain ⟨w, _, hw⟩ := mem_text_mul.1 hmem <;>
      have hsecond := (List.cons_eq_cons.1 hw).2
    · cases rest with
      | nil => cases hsecond
      | cons d rest =>
        obtain ⟨rfl, _⟩ := List.cons_eq_cons.1 hsecond
        have hlonger := h.longest .lineComment lineStart ⟨rest ++ v, rfl⟩
          (mem_text_mul.2 ⟨[], Language.nil_mem_kstar _, rfl⟩)
        exact absurd hlonger (by decide)
    · cases rest with
      | nil => cases hsecond
      | cons d rest =>
        obtain ⟨rfl, _⟩ := List.cons_eq_cons.1 hsecond
        exact hrest rfl
  · refine hnewline (List.mem_cons_of_mem _ (List.mem_append_left _ (List.mem_append_right _ ?_)))
    exact hline (ne_of_comment hcomment).2.2
  · exact hany rfl

theorem Takes.before_blank {pattern : Pattern} {text rest v : Bytes}
    (h : Takes language pattern text (rest ++ v)) (hne : text ≠ []) (hblanks : pattern ≠ .blanks)
    (hany : pattern ≠ .anyByte) (hline : pattern.terminal? = none → newline ∈ rest)
    (hrest : rest.head? ≠ some backslash) (x : Bytes) :
    Takes language pattern text (rest ++ byte ' ' :: x) := by
  refine ⟨h.mem, fun q w hw hmem => ?_, h.first⟩
  have hbefore {u : Bytes} (hu : u <+: text ++ rest) (hq : u ∈ q.language) :
      u.length ≤ text.length := by
    refine h.longest q u (hu.trans ?_) hq
    rw [← List.append_assoc]
    exact List.prefix_append _ _
  rw [← List.append_assoc] at hw
  rcases List.prefix_or_prefix_of_prefix hw (List.prefix_append _ _) with hle | ⟨t, rfl⟩
  · exact hbefore hle hmem
  rcases List.prefix_cons_iff.1 ((List.prefix_append_right_inj _).1 hw) with rfl | ⟨t, rfl, _⟩
  · rw [List.append_nil] at hmem ⊢
    exact hbefore (List.prefix_refl _) hmem
  -- a match would go on over the blank
  exfalso
  obtain ⟨b, text, rfl⟩ := List.exists_cons_of_ne_nil hne
  have hfirst := begins_of_mem h.mem
  rcases eq_of_blank_mem hmem with rfl | hq | rfl
  · rcases begins_blank (begins_of_mem hmem) hfirst with rfl | rfl
    · exact hblanks rfl
    · exact hany rfl
  · exact not_comment_of_takes h hany hline hrest hq hmem
  · have hb : b = quote := by simpa [begins] using begins_of_mem hmem
    subst hb
    rcases begins_quote hfirst with rfl | rfl
    · have hclosed := cons_mem_quoted.1 h.mem
      have hopen : text ++ (rest ++ byte ' ' :: t) ∈ quotedRest := by
        rw [← List.append_assoc]
        exact cons_mem_quoted.1 hmem
      have hnil := nil_of_append_mem_quotedRest hclosed hopen
      exact List.append_ne_nil_of_right_ne_nil _ (List.cons_ne_nil _ _) hnil
    · exact hany rfl

end Pattern

theorem Scanner.takes_of_take? {pattern : Pattern} {text after : Bytes}
    (h : take? (text ++ after) = some (pattern, text.length)) (hne : text ≠ []) :
    Takes Pattern.language pattern text after := by
  obtain ⟨b, rest, rfl⟩ := List.exists_cons_of_ne_nil hne
  obtain ⟨_, taken, left, hbytes, _, htakes, htake⟩ := take?_cons b (rest ++ after)
  obtain ⟨rfl, hlength⟩ := Prod.mk.inj (Option.some.inj (htake.symm.trans h))
  obtain ⟨rfl, rfl⟩ := List.append_inj hbytes hlength.symm
  exact htakes

/-- The bytes before a place are cut into lexemes, and no comment before it is on its line. -/
inductive Cut (v : Bytes) : Bytes → List Lexeme → Prop where
  | nil : Cut v [] []
  | blank {b : UInt8} {rest : Bytes} {w : List Lexeme} : Pattern.isBlank b = true →
      Cut v rest w → Cut v (b :: rest) w
  | comment {pattern : Pattern} {text rest : Bytes} {w : List Lexeme} :
      Takes Pattern.language pattern text (rest ++ v) → text ≠ [] →
      pattern = .lineComment ∨ pattern = .blockComment → newline ∈ rest → Cut v rest w →
      Cut v (text ++ rest) w
  | next {pattern : Pattern} {terminal : Terminal} {text rest : Bytes} {w : List Lexeme} :
      Takes Pattern.language pattern text (rest ++ v) → text ≠ [] →
      pattern.terminal? = some terminal → Cut v rest w →
      Cut v (text ++ rest) (⟨terminal, text⟩ :: w)

namespace Cut

variable {u v : Bytes} {w : List Lexeme}

theorem head?_ne_backslash (h : Cut v u w) : u.head? ≠ some backslash := by
  have hbegins {pattern : Pattern} {text rest : Bytes} (hne : text ≠ [])
      (hpattern : pattern ≠ .anyByte) (htakes : Takes Pattern.language pattern text (rest ++ v)) :
      (text ++ rest).head? ≠ some backslash := by
    obtain ⟨b, text, rfl⟩ := List.exists_cons_of_ne_nil hne
    intro hhead
    obtain rfl : b = backslash := Option.some.inj hhead
    exact hpattern (Pattern.begins_backslash (Pattern.begins_of_mem htakes.mem))
  cases h with
  | nil => nofun
  | blank hb _ =>
    intro hhead
    cases Option.some.inj hhead
    cases hb
  | comment htakes hne hpattern _ _ =>
    exact hbegins hne (Pattern.ne_of_comment hpattern).2.1 htakes
  | next htakes hne hterminal _ =>
    exact hbegins hne (Pattern.ne_of_terminal? hterminal).2 htakes

theorem ofBytes_append (h : Cut v u w) :
    Feed.ofBytes (u ++ v) = .after w (Feed.ofBytes v) := by
  induction h with
  | nil => rfl
  | blank hb _ ih => rw [List.cons_append, Feed.ofBytes_blank_cons hb, ih]
  | comment htakes hne hpattern _ _ ih =>
    obtain ⟨_, hany, hnone⟩ := Pattern.ne_of_comment hpattern
    rw [List.append_assoc, Feed.ofBytes_takes_skip htakes hne hnone hany, ih]
  | next htakes hne hterminal _ ih =>
    rw [List.append_assoc, Feed.ofBytes_takes_next htakes hne hterminal, ih]
    rfl

theorem ofBytes_blank (h : Cut v u w) (x : Bytes) :
    Feed.ofBytes (u ++ byte ' ' :: x) = .after w (Feed.ofBytes x) := by
  induction h with
  | nil => exact Feed.ofBytes_blank_cons rfl x
  | blank hb _ ih => rw [List.cons_append, Feed.ofBytes_blank_cons hb, ih]
  | comment htakes hne hpattern hline hrest ih =>
    obtain ⟨hblanks, hany, hnone⟩ := Pattern.ne_of_comment hpattern
    have hsame := htakes.before_blank hne hblanks hany (fun _ => hline) hrest.head?_ne_backslash x
    rw [List.append_assoc, Feed.ofBytes_takes_skip hsame hne hnone hany, ih]
  | next htakes hne hterminal hrest ih =>
    obtain ⟨hblanks, hany⟩ := Pattern.ne_of_terminal? hterminal
    have hsame := htakes.before_blank hne hblanks hany
      (fun hnone => by cases hnone.symm.trans hterminal) hrest.head?_ne_backslash x
    rw [List.append_assoc, Feed.ofBytes_takes_next hsame hne hterminal, ih]
    rfl

theorem end_notMem (h : Cut v u w) : ∀ lexeme ∈ w, lexeme.terminal ≠ .endOfInput := by
  intro lexeme hmem
  refine Feed.end_notMem_ofBytes (u ++ v) lexeme ?_
  rw [h.ofBytes_append, Feed.lexemes_after]
  exact List.mem_append_left _ hmem

end Cut

theorem Feed.ofBytes_slash_asterisk (bytes : Bytes) :
    ofBytes (byte '/' :: byte '*' :: bytes) =
      .next ⟨.symbol .divide, [byte '/']⟩ (.next ⟨.symbol .times, [byte '*']⟩ (ofBytes bytes)) := by
  have hslash : Scanner.take? (byte '/' :: byte '*' :: bytes) = some (.mark .divide, 1) := rfl
  have hasterisk : Scanner.take? (byte '*' :: bytes) = some (.mark .times, 1) := by
    cases bytes <;> rfl
  rw [ofBytes, hslash]
  dsimp only [Pattern.terminal?]
  rw [Nat.sub_self, List.drop_zero, ofBytes, hasterisk]
  rfl

namespace Table

theorem states_divide : ∀ row ∈ states, row.1.symbol = some (.terminal (.symbol .divide)) →
    row.1.reduction = none ∧ row.1.shift? (.symbol .times) = none := by
  decide +kernel

theorem after_divide {state : Nat} (h : symbol? state = some (.terminal (.symbol .divide))) :
    reduction? state = none ∧ next? state (.terminal (.symbol .times)) = none := by
  obtain ⟨row, hrow, hsymbol⟩ := Option.bind_eq_some_iff.1 h
  have hdivide := states_divide (row, state) (mem_states hrow) hsymbol
  rw [reduction?, next?, hrow]
  exact hdivide

theorem symbol?_final : symbol? final = some (.terminal .endOfInput) := by
  rw [symbol?, final_row?]
  rfl

end Table

namespace Configuration

theorem reduce_top {c d : Configuration} {production : Production}
    (h : c.reduce production = .next d) : ∃ state below, d.stack = ⟨state, []⟩ :: below ∧
      Table.symbol? state = some (.nonterminal production.head) := by
  rw [reduce] at h
  split at h
  · cases h
  · next hdrop =>
    split at h
    · cases h
    · next hgoto =>
      cases h
      exact ⟨_, _, rfl, Table.symbol?_of_next? hgoto⟩

/-- How far a run has come that is on its way to a slash and an asterisk: the end of the input has
not been read, and right after the slash its state is on top. -/
inductive Approaches (slash asterisk : Lexeme) (rest : Feed) (c : Configuration) : Prop where
  | before {w : List Lexeme} {top : Frame} {below : List Frame} :
      c.feed = .after w (.next slash (.next asterisk rest)) →
      (∀ lexeme ∈ w, lexeme.terminal ≠ .endOfInput) → c.stack = top :: below →
      Table.symbol? top.state ≠ some (.terminal .endOfInput) → Approaches slash asterisk rest c
  | between {top : Frame} {below : List Frame} :
      c.feed = .next asterisk rest → c.stack = top :: below →
      Table.symbol? top.state = some (.terminal (.symbol .divide)) →
      Approaches slash asterisk rest c

namespace Approaches

variable {slash asterisk : Lexeme} {rest : Feed} {c d : Configuration}

theorem step (hslash : slash.terminal = .symbol .divide)
    (hasterisk : asterisk.terminal = .symbol .times) (h : Approaches slash asterisk rest c)
    (hstep : c.step = .next d) : Approaches slash asterisk rest d := by
  have heffect := hstep ▸ c.step_effect
  cases h with
  | between hfeed hstack hsymbol =>
    obtain ⟨hreduction, hnext⟩ := Table.after_divide hsymbol
    cases heffect with
    | shift hframes hahead hshift =>
      obtain ⟨rfl, _⟩ := List.cons_eq_cons.1 (hstack.symm.trans hframes)
      rw [hfeed] at hahead
      cases hahead
      cases (hasterisk ▸ hnext).symm.trans hshift
    | reduce hframes hproduction _ _ =>
      obtain ⟨rfl, _⟩ := List.cons_eq_cons.1 (hstack.symm.trans hframes)
      cases hreduction.symm.trans hproduction
  | @before w _ _ hfeed hend hstack hsymbol =>
    cases heffect with
    | shift hframes hahead hshift =>
      rw [hfeed] at hahead
      have htop := Table.symbol?_of_next? hshift
      cases w with
      | nil =>
        cases hahead
        exact .between rfl rfl (hslash ▸ htop)
      | cons lexeme w =>
        cases hahead
        obtain ⟨hlexeme, hothers⟩ := List.forall_mem_cons.1 hend
        refine .before rfl hothers rfl fun hsame => hlexeme ?_
        exact GrammarSymbol.terminal.inj (Option.some.inj (htop.symm.trans hsame))
    | reduce _ _ _ hreduce =>
      obtain ⟨state, below, hframes, htop⟩ := reduce_top hreduce
      refine .before ((reduce_next hreduce).1.trans hfeed) hend hframes fun hsame => ?_
      cases htop.symm.trans hsame

theorem runs (hslash : slash.terminal = .symbol .divide)
    (hasterisk : asterisk.terminal = .symbol .times) {n : Nat}
    (h : Approaches slash asterisk rest c) (hruns : Runs n c d) :
    Approaches slash asterisk rest d := by
  induction hruns with
  | refl => exact h
  | head hstep _ ih => exact ih (h.step hslash hasterisk hstep)

theorem step_ne_accepted (h : Approaches slash asterisk rest c) : c.step ≠ .halt .accepted := by
  intro haccepted
  obtain ⟨top, below, hframes, htop⟩ := final_of_accepted haccepted
  have hsymbol : Table.symbol? top.state = some (.terminal .endOfInput) := by
    rw [htop, Table.symbol?_final]
  cases h with
  | before _ _ hstack hne =>
    obtain ⟨rfl, _⟩ := List.cons_eq_cons.1 (hstack.symm.trans hframes)
    exact hne hsymbol
  | between _ hstack hdivide =>
    obtain ⟨rfl, _⟩ := List.cons_eq_cons.1 (hstack.symm.trans hframes)
    cases hdivide.symm.trans hsymbol

theorem exists_feed (h : Approaches slash asterisk rest c) :
    ∃ lexeme more, c.feed = .next lexeme more := by
  cases h with
  | between hfeed _ _ => exact ⟨_, _, hfeed⟩
  | @before w _ _ hfeed _ _ _ =>
    cases w with
    | nil => exact ⟨_, _, hfeed⟩
    | cons lexeme w => exact ⟨_, _, hfeed⟩

end Approaches

/-- A lexeme that has its place in what is accepted has it in all that begins alike. -/
theorem step_ne_misplaced {w v : List Lexeme} {x : Lexeme} {feed rest : Feed} {n : Nat}
    {c : Configuration} (haccepted : (Verdict.ofFeed (.after (w ++ x :: v) feed)).halt = .accepted)
    (hruns : Runs n (.start (.after (w ++ x :: v) rest)) c)
    (hfeed : c.feed = .next x (.after v rest)) : c.step ≠ .halt (.misplaced x.text) := by
  intro hhalt
  have hroom := length_stack_lt fun text hfull => by cases hhalt.symm.trans hfull
  rcases halted hhalt nofun nofun nofun with
    ⟨byte, hbyte, _⟩ | ⟨top, below, lexeme, more, hstack, hahead, hnext, hreduction, _⟩
  · cases hfeed.symm.trans hbyte
  rw [hfeed] at hahead
  cases hahead
  have hfinal : top.state ≠ Table.final := fun htop => by
    cases hhalt.symm.trans (step_accept hstack htop hroom)
  -- the same is done on what is accepted, up to the lexeme
  obtain ⟨before, hbefore, hsame⟩ := hruns.before hfeed
  obtain rfl : w = before := Feed.after_injective ((Feed.after_append w _ rest).symm.trans hbefore)
  obtain ⟨last, hother⟩ := hsame (.after v feed) []
  have hinvariant := (Invariant.init (.after w (.next x (.after v feed)))).runs hother
  have hmisplaced := hinvariant.step_misplaced hroom hstack hfinal rfl hnext hreduction
  rw [Feed.after_append] at haccepted
  obtain ⟨m, e, he, haccept⟩ := Verdict.runs_of_accepted haccepted
  cases hother.halt_eq hmisplaced he haccept

end Configuration

open LevelScript.Checker.Configuration (Approaches)

/-- Where a slash and an asterisk are put between the lexemes of what is accepted, one of the two is
found misplaced, unless the stack is full before. -/
theorem Verdict.halt_slash_asterisk {w : List Lexeme} {feed rest : Feed} {slash asterisk : Lexeme}
    (hslash : slash.terminal = .symbol .divide) (hasterisk : asterisk.terminal = .symbol .times)
    (hend : ∀ lexeme ∈ w, lexeme.terminal ≠ .endOfInput)
    (haccepted : (Verdict.ofFeed (.after w feed)).halt = .accepted) :
    let halt := (Verdict.ofFeed (.after w (.next slash (.next asterisk rest)))).halt
    halt = .misplaced slash.text ∨ halt = .misplaced asterisk.text ∨
      ∃ text, halt = .stackFull text := by
  intro halt
  have hstuck : halt ≠ .stuck := Verdict.halt_ne_stuck _
  obtain ⟨n, c, hruns, hhalt, _⟩ := Verdict.runs_of_ofFeed hstuck
  have hstart : Approaches slash asterisk rest
      (.start (.after w (.next slash (.next asterisk rest)))) := by
    refine .before rfl hend rfl ?_
    rw [Table.start_symbol?]
    nofun
  have hcome := hstart.runs hslash hasterisk hruns
  have hne : halt ≠ .accepted := fun heq => hcome.step_ne_accepted (heq ▸ hhalt)
  by_cases hfull : ∃ text, halt = .stackFull text
  · exact .inr (.inr hfull)
  rcases Configuration.halted hhalt hstuck hne (fun text heq => hfull ⟨text, heq⟩) with
    ⟨byte, hbyte, _⟩ | ⟨_, _, lexeme, more, _, hahead, _, _, hreason⟩
  · obtain ⟨_, _, hfeed⟩ := hcome.exists_feed
    cases hfeed.symm.trans hbyte
  cases hcome with
  | between hfeed _ _ =>
    rw [hfeed] at hahead
    cases hahead
    exact .inr (.inl hreason)
  | @before v _ _ hfeed _ _ _ =>
    rw [hfeed] at hahead
    cases v with
    | nil =>
      cases hahead
      exact .inl hreason
    | cons _ v =>
      cases hahead
      obtain ⟨before, hbefore, _⟩ := hruns.before hfeed
      obtain rfl : w = before ++ lexeme :: v := by
        refine Feed.after_injective (hbefore.trans ?_)
        exact (Feed.after_append before (lexeme :: v) _).symm
      exact absurd (hreason ▸ hhalt) (Configuration.step_ne_misplaced haccepted hruns hfeed)

/-- A text between `/*` and `*/`, and blanks around it. -/
def blockCommented (content : Bytes) : Bytes :=
  encodeUtf8 " /*" ++ content ++ encodeUtf8 "*/ "

theorem Cut.ofBytes_blockCommented {u v : Bytes} {w : List Lexeme} (h : Cut v u w)
    (content : Bytes) : Feed.ofBytes (u ++ blockCommented content ++ v) =
      .after w (.next ⟨.symbol .divide, encodeUtf8 "/"⟩ (.next ⟨.symbol .times, encodeUtf8 "*"⟩
        (Feed.ofBytes (content ++ encodeUtf8 "*/ " ++ v)))) := by
  have hbytes : u ++ blockCommented content ++ v =
      u ++ byte ' ' :: byte '/' :: byte '*' :: (content ++ encodeUtf8 "*/ " ++ v) := by
    have hopening : encodeUtf8 " /*" = [byte ' ', byte '/', byte '*'] := by decide
    rw [blockCommented, hopening]
    simp only [List.append_assoc, List.cons_append, List.nil_append]
  have hslash : encodeUtf8 "/" = [byte '/'] := by decide
  have hasterisk : encodeUtf8 "*" = [byte '*'] := by decide
  rw [hbytes, h.ofBytes_blank, Feed.ofBytes_slash_asterisk, hslash, hasterisk]

/-- A block comment is not passed over. Where one is put between two lexemes of an accepted source,
and no other comment is before it on its line, the source is rejected, whatever the comment says.
The complaint is about its slash or its asterisk, unless the stack has no more room. -/
theorem block_comment_rejected (u v content : Bytes) (w : List Lexeme) (hcut : Cut v u w)
    (haccepted : (Verdict.ofBytes (u ++ v)).halt = .accepted) :
    let verdict := Verdict.ofBytes (u ++ blockCommented content ++ v)
    (Verdict.ofBytes (u ++ v)).exitCode = 0 ∧ (Verdict.ofBytes (u ++ v)).complaints = [] ∧
      verdict.exitCode = 1 ∧
      (verdict.complaints = Verdict.printed [Verdict.complaint "syntax error" (encodeUtf8 "/")] ∨
        verdict.complaints = Verdict.printed [Verdict.complaint "syntax error" (encodeUtf8 "*")] ∨
        ∃ text, verdict.complaints =
          Verdict.printed [Verdict.complaint "memory exhausted" text]) ∧
      verdict.output = Verdict.printed ([encodeUtf8 "Iniciando análise do arquivo..."] ++
        verdict.lines.map Line.bytes ++ [encodeUtf8 "Falha na análise sintática."]) := by
  intro verdict
  have hcode : (Verdict.ofBytes (u ++ v)).exitCode = 0 := by
    rw [Verdict.exitCode, if_pos haccepted]
  have hsilent : (Verdict.ofBytes (u ++ v)).complaints = [] := by
    rw [Verdict.complaints, haccepted]
  refine ⟨hcode, hsilent, ?_⟩
  rw [Verdict.ofBytes, hcut.ofBytes_append] at haccepted
  have hhalt : verdict.halt = .misplaced (encodeUtf8 "/") ∨
      verdict.halt = .misplaced (encodeUtf8 "*") ∨ ∃ text, verdict.halt = .stackFull text := by
    have hfeed : verdict = Verdict.ofFeed _ :=
      congrArg Verdict.ofFeed (hcut.ofBytes_blockCommented content)
    rw [hfeed]
    exact Verdict.halt_slash_asterisk rfl rfl hcut.end_notMem haccepted
  have hne : verdict.halt ≠ .accepted := by
    intro haccept
    rcases hhalt with hreason | hreason | ⟨_, hreason⟩ <;> cases haccept.symm.trans hreason
  have hrejected : verdict.exitCode = 1 := by
    rw [Verdict.exitCode, if_neg hne]
  rcases hhalt with hslash | hasterisk | ⟨text, hfull⟩
  · obtain ⟨hsaid, houtput⟩ := Verdict.says_misplaced hslash
    exact ⟨hrejected, .inl hsaid, houtput⟩
  · obtain ⟨hsaid, houtput⟩ := Verdict.says_misplaced hasterisk
    exact ⟨hrejected, .inr (.inl hsaid), houtput⟩
  · obtain ⟨hsaid, houtput⟩ := Verdict.says_full hfull
    exact ⟨hrejected, .inr (.inr ⟨text, hsaid⟩), houtput⟩

/-- A comment is put after a line comment, at the beginning of the next line. -/
theorem second_comment_rejected :
    Cut (encodeUtf8 "1;") (encodeUtf8 "x = // dois\n")
        [⟨.identifier, encodeUtf8 "x"⟩, ⟨.symbol .assign, encodeUtf8 "="⟩] ∧
      (Verdict.ofBytes (encodeUtf8 "x = // dois\n" ++ encodeUtf8 "1;")).halt = .accepted ∧
      (Verdict.ofBytes (encodeUtf8 "x = // dois\n" ++ blockCommented (encodeUtf8 " um ") ++
        encodeUtf8 "1;")).exitCode = 1 := by
  have hcut : Cut (encodeUtf8 "1;") (encodeUtf8 "x = // dois\n")
      [⟨.identifier, encodeUtf8 "x"⟩, ⟨.symbol .assign, encodeUtf8 "="⟩] := by
    have hbytes : encodeUtf8 "x = // dois\n" = encodeUtf8 "x" ++ byte ' ' ::
        (encodeUtf8 "=" ++ byte ' ' :: (encodeUtf8 "// dois" ++ [newline])) := by
      decide
    rw [hbytes]
    refine @Cut.next _ .name _ _ _ _ (Scanner.takes_of_take? (by decide +kernel) (by decide))
      (by decide) rfl (.blank rfl ?_)
    refine @Cut.next _ (.mark .assign) _ _ _ _
      (Scanner.takes_of_take? (by decide +kernel) (by decide)) (by decide) rfl (.blank rfl ?_)
    exact @Cut.comment _ .lineComment _ _ _
      (Scanner.takes_of_take? (by decide +kernel) (by decide)) (by decide) (.inl rfl) (by decide)
      (.blank rfl .nil)
  have haccepted :
      (Verdict.ofBytes (encodeUtf8 "x = // dois\n" ++ encodeUtf8 "1;")).halt = .accepted := by
    decide +kernel
  exact ⟨hcut, haccepted, (block_comment_rejected _ _ (encodeUtf8 " um ") _ hcut haccepted).2.2.1⟩

/-- The comment in `x = /* um */ 1;` makes the difference. -/
theorem comment_not_ignored :
    encodeUtf8 "x =" ++ blockCommented (encodeUtf8 " um ") ++ encodeUtf8 "1;" =
        encodeUtf8 "x = /* um */ 1;" ∧
      (Verdict.ofBytes (encodeUtf8 "x =1;")).exitCode = 0 ∧
      (Verdict.ofBytes (encodeUtf8 "x = /* um */ 1;")).exitCode = 1 ∧
      (Verdict.ofBytes (encodeUtf8 "x = /* um */ 1;")).complaints =
        Verdict.printed [Verdict.complaint "syntax error" (encodeUtf8 "/")] := by
  decide +kernel

end LevelScript.Checker

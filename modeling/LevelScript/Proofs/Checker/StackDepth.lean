import LevelScript.Proofs.Checker.Nesting
import Mathlib.Data.List.Infix

set_option autoImplicit false

/-!
# The depth of the stack

Lists are parsed from the left, so what stands on the stack between two open brackets is bounded by
the grammar and not by the length of the input. The stack is a walk through the table: each state
has a surplus, and an edge adds at most what the surplus of its ends and twelve frames for an opened
bracket allow. Bodies of productions open as many brackets as they close, so the brackets open on
the stack are those open in what has been read.
-/

namespace LevelScript.Checker

open Text (Bytes encodeUtf8)
open LevelScript.Checker.Configuration (Runs stackLimit)

namespace Terminal

def isOpening (t : Terminal) : Bool :=
  t ∈ [symbol .leftParen, symbol .leftBrace, symbol .leftBracket]

def isClosing (t : Terminal) : Bool :=
  t ∈ [symbol .rightParen, symbol .rightBrace, symbol .rightBracket]

def excess (w : List Terminal) : Int :=
  (w.countP isOpening : Int) - w.countP isClosing

/-- The largest excess over all prefixes. -/
def deepest (w : List Terminal) : Int :=
  (w.inits.map excess).foldl max 0

theorem excess_append (u v : List Terminal) : excess (u ++ v) = excess u + excess v := by
  simp only [excess, List.countP_append]
  omega

theorem foldl_max_le {depths : List Int} {least bound : Int} :
    depths.foldl max least ≤ bound ↔ least ≤ bound ∧ ∀ depth ∈ depths, depth ≤ bound := by
  induction depths generalizing least with
  | nil => simp
  | cons depth depths ih =>
    rw [List.foldl_cons, ih, List.forall_mem_cons, Int.max_le, and_assoc]

theorem excess_le_deepest {u w : List Terminal} (h : u <+: w) : excess u ≤ deepest w :=
  (foldl_max_le.1 (Int.le_refl _)).2 _ (List.mem_map_of_mem ((List.mem_inits u w).2 h))

end Terminal

open Terminal (excess deepest)

namespace GrammarSymbol

def terminal? : GrammarSymbol → Option Terminal
  | .terminal t => some t
  | .nonterminal _ => none

def excess (symbols : List GrammarSymbol) : Int :=
  Terminal.excess (symbols.filterMap terminal?)

theorem excess_append (u v : List GrammarSymbol) : excess (u ++ v) = excess u + excess v := by
  rw [excess, List.filterMap_append, Terminal.excess_append]
  rfl

theorem excess_terminal (t : Terminal) : excess [.terminal t] = Terminal.excess [t] :=
  rfl

theorem excess_nonterminal (n : Nonterminal) : excess [.nonterminal n] = 0 :=
  rfl

end GrammarSymbol

theorem Production.excess_body (production : Production) :
    GrammarSymbol.excess production.body = 0 := by
  cases production <;> rfl

namespace Table

/-- For each state, how many frames a walk to it has at most, apart from the first frame and from
twelve frames for each open bracket. -/
def surpluses : List Int :=
  [0, 1, 2, 2, 2, 2, 2, 2, 2, 2, 2, 2, 2, 2, 2, 2, -3, 2, 2, 2, 2, 2, 2, 2, 2, 2, 2, 2, 3, -9, 3, 3,
   3, -9, -9, -9, 15, 15, 15, 15, 15, 15, 3, 3, 3, 3, 7, 7, 9, 11, 13, 15, 15, 15, 15, 15, -9, -9,
   -9, -9, -9, -9, -2, 4, -8, 8, 8, 8, 8, 4, 8, -8, -8, -8, -8, -6, -8, 4, 4, 4, 4, 4, 4, 4, 8, 8,
   10, 10, 10, 10, 10, 10, 12, 12, 14, 14, -8, -8, -8, -8, -8, -8, -1, 11, -1, 5, 5, 5, -3, -5, -7,
   -7, -7, -7, 5, 5, -7, 5, 5, 17, 17, 5, 9, 9, 11, 11, 11, 11, 11, 11, 13, 13, 15, 15, 5, 5, 5, 5,
   5, 5, 6, 6, 10, -4, 6, -6, 6, -6, -6, -6, 6, 6, -6, 18, 18, 6, 6, 6, 6, 6, 6, 6, 7, 7, -3, 7, 7,
   -5, 7, 7, -5, 8, 8, -4, 8, 8, -3, 9, 10]

def surplus (state : Nat) : Int :=
  surpluses[state]?.getD 0

theorem surplus_le (state : Nat) : surplus state ≤ 18 := by
  have hall : ∀ s ∈ surpluses, s ≤ 18 := by decide +kernel
  rw [surplus]
  cases hstate : surpluses[state]? with
  | none => decide
  | some s => exact hall s (List.mem_of_getElem? hstate)

theorem states_surplus : ∀ row ∈ states, ∀ entry ∈ row.1.entries,
    surplus row.2 + 1 ≤ 12 * GrammarSymbol.excess [entry.1] + surplus entry.2 := by
  decide +kernel

theorem surplus_next? {state after : Nat} {symbol : GrammarSymbol}
    (h : next? state symbol = some after) :
    surplus state + 1 ≤ 12 * GrammarSymbol.excess [symbol] + surplus after := by
  obtain ⟨row, hrow, hentry⟩ := entry_of_next? h
  exact states_surplus (row, state) (mem_states hrow) (symbol, after) hentry

end Table

/-- A walk is as long as its open brackets and the surplus of its last state allow. -/
theorem Walks.length_le {symbols : List GrammarSymbol} {texts : List Bytes} {top : Frame}
    {below : List Frame} (h : Walks [⟨Table.start, []⟩] symbols texts (top :: below)) :
    (symbols.length : Int) ≤ 12 * GrammarSymbol.excess symbols + Table.surplus top.state := by
  refine h.top_induction (motive := fun symbols state =>
    (symbols.length : Int) ≤ 12 * GrammarSymbol.excess symbols + Table.surplus state) (by decide) ?_
  intro before symbol state after hlength hnext
  have hsurplus := Table.surplus_next? hnext
  rw [GrammarSymbol.excess_append, List.length_append, List.length_singleton]
  push_cast
  omega

/-- The stack is a walk with as many open brackets as what has been read of the feed. -/
def Tallies (feed : Feed) (c : Configuration) : Prop :=
  ∃ (u : List Lexeme) (symbols : List GrammarSymbol) (texts : List Bytes),
    feed.lexemes = u ++ c.feed.lexemes ∧ Walks [⟨Table.start, []⟩] symbols texts c.stack ∧
      GrammarSymbol.excess symbols = excess (u.map Lexeme.terminal)

namespace Tallies

variable {feed : Feed} {c d : Configuration}

theorem start (feed : Feed) : Tallies feed (.start feed) :=
  ⟨[], [], [], rfl, .nil, rfl⟩

theorem shift {top : Frame} {below : List Frame} {lexeme : Lexeme} {rest : Feed} {state : Nat}
    (h : Tallies feed c) (hstack : c.stack = top :: below)
    (hahead : c.feed.ahead? = some (lexeme, rest))
    (hnext : Table.next? top.state (.terminal lexeme.terminal) = some state) :
    Tallies feed ⟨⟨state, lexeme.text⟩ :: c.stack, rest, lexeme.text, c.lines⟩ := by
  obtain ⟨u, symbols, texts, hread, hwalks, hexcess⟩ := h
  rw [hstack] at hwalks ⊢
  have hput := hwalks.append (.single hnext lexeme.text)
  cases hfeed : c.feed with
  | finish =>
    rw [hfeed] at hread hahead
    cases hahead
    refine ⟨u, _, _, hread, hput, ?_⟩
    rw [GrammarSymbol.excess_append, hexcess]
    exact Int.add_zero _
  | invalid byte =>
    rw [hfeed] at hahead
    cases hahead
  | next first more =>
    rw [hfeed] at hread hahead
    cases hahead
    refine ⟨u ++ [lexeme], _, _, ?_, hput, ?_⟩
    · rw [hread, List.append_assoc]
      rfl
    · rw [GrammarSymbol.excess_append, GrammarSymbol.excess_terminal, List.map_append,
        Terminal.excess_append, hexcess]
      rfl

theorem reduce {top : Frame} {below : List Frame} {production : Production} {last : Bytes}
    (h : Tallies feed c) (hstack : c.stack = top :: below)
    (hreduction : Table.reduction? top.state = some production)
    (hreduce : { c with last := last }.reduce production = .next d) : Tallies feed d := by
  obtain ⟨u, symbols, texts, hread, hwalks, hexcess⟩ := h
  obtain ⟨before, s, t, base, rest, state, rfl, rfl, hbefore, _, hnext, hreduced⟩ :=
    Configuration.exists_of_reduction hwalks hstack hreduction
  cases (hreduced last).symm.trans hreduce
  refine ⟨u, _, _, hread, hbefore.append (.single hnext []), ?_⟩
  rw [GrammarSymbol.excess_append, production.excess_body] at hexcess
  rw [GrammarSymbol.excess_append, GrammarSymbol.excess_nonterminal, hexcess]

theorem step (h : Tallies feed c) (hstep : c.step = .next d) : Tallies feed d := by
  have heffect := hstep ▸ c.step_effect
  cases heffect with
  | shift hstack hahead hnext => exact h.shift hstack hahead hnext
  | reduce hstack hreduction _ hreduce => exact h.reduce hstack hreduction hreduce

theorem runs {n : Nat} (h : Tallies feed c) (hruns : Runs n c d) : Tallies feed d := by
  induction hruns with
  | refl c => exact h
  | head hstep _ ih => exact ih (h.step hstep)

theorem length_stack_le (h : Tallies feed c) :
    (c.stack.length : Int) ≤ 12 * deepest (feed.lexemes.map Lexeme.terminal) + 19 := by
  obtain ⟨u, symbols, texts, hread, hwalks, hexcess⟩ := h
  obtain ⟨frames, hframes, hlength, _⟩ := hwalks.frames
  obtain ⟨top, below, hstack⟩ := hwalks.exists_top
  have hsymbols := (hstack ▸ hwalks).length_le
  have hsurplus := Table.surplus_le top.state
  have hdeepest : excess (u.map Lexeme.terminal) ≤ deepest (feed.lexemes.map Lexeme.terminal) := by
    refine Terminal.excess_le_deepest ?_
    rw [hread, List.map_append]
    exact List.prefix_append _ _
  rw [hframes, List.length_append, List.length_singleton]
  push_cast
  omega

end Tallies

theorem roomy_of_deepest {feed : Feed} (h : deepest (feed.lexemes.map Lexeme.terminal) ≤ 800) :
    Roomy (.start feed) := by
  intro n c hruns
  have hlength := ((Tallies.start feed).runs hruns).length_stack_le
  rw [stackLimit]
  omega

namespace Configuration

theorem reason_of_reduce {c : Configuration} {production : Production} {reason : Halt}
    (h : c.reduce production = .halt reason) : reason = .stuck := by
  rw [reduce] at h
  split at h
  · cases h
    rfl
  · split at h
    · cases h
      rfl
    · cases h

theorem full_of_stackFull {c : Configuration} {text : Bytes}
    (h : c.step = .halt (.stackFull text)) : stackLimit ≤ c.stack.length := by
  have heffect := h ▸ c.step_effect
  cases heffect with
  | full hfull => exact hfull
  | reduce _ _ _ hreduce => cases reason_of_reduce hreduce

end Configuration

namespace Verdict

theorem take_printed {begun rest : Bytes} {n : Nat} (h : n ≤ begun.length) :
    (printed [begun ++ rest]).take n = begun.take n := by
  rw [printed, List.flatMap_cons, List.append_assoc, List.append_assoc,
    List.take_append_of_le_length h]

theorem take_complaint {cause : String} {n : Nat}
    (h : n ≤ (encodeUtf8 ("Erro sintático: " ++ cause ++ " no token '")).length) (text : Bytes) :
    (printed [complaint cause text]).take n =
      (encodeUtf8 ("Erro sintático: " ++ cause ++ " no token '")).take n := by
  rw [complaint, List.append_assoc, take_printed h]

theorem stackFull_of_complaints {verdict : Verdict} {text : Bytes}
    (h : verdict.complaints = printed [complaint "memory exhausted" text]) :
    ∃ last, verdict.halt = .stackFull last := by
  -- what else can be complained of differs within the first eighteen bytes
  have hbegun := congrArg (List.take 18) h
  rw [take_complaint (by decide +kernel)] at hbegun
  cases hhalt : verdict.halt with
  | stackFull last => exact ⟨last, rfl⟩
  | accepted | stuck =>
    simp only [complaints, hhalt] at hbegun
    exact absurd hbegun (by decide +kernel)
  | invalidByte byte =>
    simp only [complaints, hhalt, List.append_assoc] at hbegun
    rw [take_printed (by decide +kernel)] at hbegun
    exact absurd hbegun (by decide +kernel)
  | misplaced last =>
    simp only [complaints, hhalt] at hbegun
    rw [take_complaint (by decide +kernel)] at hbegun
    exact absurd hbegun (by decide +kernel)

end Verdict

/-- However long the input is, the frames above the first one are at most twelve for each bracket
that is open where most of them are, and twenty-four more. So the memory is exhausted only after
more than 800 brackets have been open at a time. -/
theorem stack_bounded (feed : Feed) :
    (∀ n c, Runs n (.start feed) c →
      (c.stack.length : Int) ≤ 1 + 12 * (deepest (feed.lexemes.map Lexeme.terminal) + 2)) ∧
    ∀ text, (Verdict.ofFeed feed).complaints =
        Verdict.printed [Verdict.complaint "memory exhausted" text] →
      800 < deepest (feed.lexemes.map Lexeme.terminal) := by
  have hbound {n : Nat} {c : Configuration} (hruns : Runs n (.start feed) c) :=
    ((Tallies.start feed).runs hruns).length_stack_le
  constructor
  · intro n c hruns
    have hstack := hbound hruns
    omega
  · intro text hcomplaints
    obtain ⟨last, hfull⟩ := Verdict.stackFull_of_complaints hcomplaints
    obtain ⟨n, c, hruns, hhalt, _⟩ := Verdict.runs_of_ofFeed (ne_of_eq_of_ne hfull nofun)
    have hstack := hbound hruns
    have hlimit := Configuration.full_of_stackFull (hfull ▸ hhalt)
    rw [stackLimit] at hlimit
    omega

/-- After `x: number =` five frames stand above the first one, and no bracket has been opened. The
memory is exhausted by as many opened parentheses as the stack has room for. -/
theorem nested_stack_bounded :
    (∃ c, Runs 7 (.start (.ofLexemes header)) c ∧ c.stack.length = 6 ∧
      (c.stack.length : Int) ≤ 1 + 12 * (deepest (header.map Lexeme.terminal) + 2)) ∧
    ∃ text, (Verdict.ofFeed (.ofLexemes (nested 9994))).complaints =
        Verdict.printed [Verdict.complaint "memory exhausted" text] ∧
      800 < deepest ((nested 9994).map Lexeme.terminal) := by
  constructor
  · obtain ⟨c, _, _, hruns, _, hlength, _⟩ := runs_header .finish
    have hbound := (stack_bounded (.ofLexemes header)).1 7 c hruns
    exact ⟨c, hruns, hlength, by rwa [Feed.lexemes_ofLexemes] at hbound⟩
  · obtain ⟨text, hverdict⟩ := verdict_nested (Nat.le_refl stackLimit : stackLimit ≤ 9994 + 6)
    have hcomplaints : (Verdict.ofFeed (.ofLexemes (nested 9994))).complaints =
        Verdict.printed [Verdict.complaint "memory exhausted" text] := by
      rw [hverdict, Verdict.complaints]
    have hdeepest := (stack_bounded (.ofLexemes (nested 9994))).2 text hcomplaints
    exact ⟨text, hcomplaints, by rwa [Feed.lexemes_ofLexemes] at hdeepest⟩

end LevelScript.Checker

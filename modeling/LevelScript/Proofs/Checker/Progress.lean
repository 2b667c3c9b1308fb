import LevelScript.Proofs.Checker.Viability

set_option autoImplicit false

/-!
# Every feed gets a verdict

The automaton has a row for each state that it comes to and a place for each head that it reduces
to. The symbols on its stack are worth at most one step more than their lexemes have paid for, so
that it halts before the steps of a verdict are used up.
-/

namespace LevelScript.Checker

open Text (Bytes)
open LevelScript.Checker.Configuration (Runs)

/-- A symbol that is worth a step stands only after one that is worth less than none. -/
theorem states_balanced : ∀ row ∈ Table.states, ∀ entry ∈ row.1.entries,
    potential entry.1 ≤ -1 ∨
      potential entry.1 ≤ 1 ∧ ∀ symbol ∈ row.1.symbol, potential symbol ≤ -1 := by
  decide +kernel

theorem Table.balanced {state after : Nat} {symbol : GrammarSymbol}
    (h : next? state symbol = some after) :
    potential symbol ≤ -1 ∨
      potential symbol ≤ 1 ∧ ∀ last, symbol? state = some last → potential last ≤ -1 := by
  obtain ⟨row, hrow, hentry⟩ := entry_of_next? h
  have hbalanced := states_balanced (row, state) (mem_states hrow) (symbol, after) hentry
  have hsymbol : symbol? state = row.symbol := by
    rw [symbol?, hrow]
    rfl
  rw [hsymbol]
  exact hbalanced

theorem Walks.potential_le {symbols : List GrammarSymbol} {texts : List Bytes} {top : Frame}
    {below : List Frame} (h : Walks [⟨Table.start, []⟩] symbols texts (top :: below)) :
    potentialOf symbols ≤ 1 ∧
      ((∀ last, Table.symbol? top.state = some last → potential last ≤ -1) →
        potentialOf symbols ≤ 0) := by
  refine h.top_induction (motive := fun symbols state => potentialOf symbols ≤ 1 ∧
    ((∀ last, Table.symbol? state = some last → potential last ≤ -1) → potentialOf symbols ≤ 0))
    ⟨Int.zero_le_ofNat 1, fun _ => Int.le_refl 0⟩ ?_
  intro before symbol state after hbefore hnext
  obtain ⟨hone, hzero⟩ := hbefore
  have htop : Table.symbol? after = some symbol := Table.symbol?_of_next? hnext
  rw [potentialOf_append, potentialOf_singleton]
  rcases Table.balanced hnext with hless | ⟨hmost, hbelow⟩
  · exact ⟨by omega, fun _ => by omega⟩
  · have hworth := hzero hbelow
    refine ⟨by omega, fun h => ?_⟩
    have hsymbol := h symbol htop
    omega

namespace Invariant

theorem step_ne_stuck {feed : Feed} {n : Nat} {c : Configuration} (h : Invariant feed n c) :
    c.step ≠ .halt .stuck := by
  intro hstep
  have heffect := hstep ▸ c.step_effect
  cases h with
  | finished _ hstack htop _ _ =>
    cases heffect with
    | stuck hnone =>
      have hrow := hnone _ _ hstack
      rw [htop, Table.final_row?] at hrow
      cases hrow
    | reduce hframes hreduction _ _ =>
      obtain ⟨rfl, _⟩ := List.cons_eq_cons.1 (hstack.symm.trans hframes)
      cases Table.final_reduction?.symm.trans (htop ▸ hreduction)
  | reading _ hwalks _ _ =>
    cases heffect with
    | stuck hnone =>
      obtain ⟨top, below, hstack⟩ := hwalks.exists_top
      obtain ⟨row, hrow⟩ := (hstack ▸ hwalks).exists_row
      cases (hnone top below hstack).symm.trans hrow
    | @reduce _ _ production last _ hstack hreduction _ hreduce =>
      obtain ⟨_, _, _, _, _, _, _, _, _, _, _, hreduced⟩ :=
        Configuration.exists_of_reduction hwalks hstack hreduction
      cases (hreduced last).symm.trans hreduce

/-- The lexemes that were read pay for the steps that were made. -/
theorem steps_le {feed : Feed} {n : Nat} {c : Configuration} (h : Invariant feed n c) :
    n ≤ 64 * feed.length + 2 := by
  cases h with
  | finished hfeed _ _ _ hn =>
    rw [hfeed, Feed.length_ofLexemes]
    exact hn
  | reading hfeed hwalks _ hn =>
    obtain ⟨top, below, hstack⟩ := hwalks.exists_top
    have hworth := (hstack ▸ hwalks).potential_le.1
    have hlength := congrArg Feed.length hfeed
    rw [Feed.length_after] at hlength
    omega

end Invariant

theorem Configuration.runs_of_stuck {n : Nat} {c : Configuration} (h : (run n c).1 = .stuck) :
    (∃ d, Runs n c d) ∨ ∃ k d, Runs k c d ∧ d.step = .halt .stuck := by
  induction n generalizing c with
  | zero => exact .inl ⟨c, .refl c⟩
  | succ n ih =>
    rw [run] at h
    cases hstep : c.step with
    | halt reason =>
      rw [hstep] at h
      obtain rfl : reason = .stuck := h
      exact .inr ⟨0, c, .refl c, hstep⟩
    | next d =>
      rw [hstep] at h
      rcases ih h with ⟨e, hruns⟩ | ⟨k, e, hruns, hhalt⟩
      · exact .inl ⟨e, .head hstep hruns⟩
      · exact .inr ⟨k + 1, e, .head hstep hruns, hhalt⟩

theorem Verdict.halt_ne_stuck (feed : Feed) : (Verdict.ofFeed feed).halt ≠ .stuck := by
  intro h
  simp only [Verdict.ofFeed] at h
  rcases Configuration.runs_of_stuck h with ⟨d, hruns⟩ | ⟨k, d, hruns, hhalt⟩
  · have hsteps := ((Invariant.init feed).runs hruns).steps_le
    omega
  · exact ((Invariant.init feed).runs hruns).step_ne_stuck hhalt

end LevelScript.Checker

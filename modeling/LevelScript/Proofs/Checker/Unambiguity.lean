import LevelScript.Proofs.Checker.Acceptance
import LevelScript.Proofs.Checker.Tree
import Mathlib.Logic.Relation

set_option autoImplicit false

/-!
# One tree for each program

The table also drives a builder of trees, whose stack has no bound. A builder never has a choice,
and it builds every tree from the tree's lexemes, so the lexemes of a program have one tree. What
the automaton reports for them are the lines of that tree.
-/

namespace LevelScript.Checker

open Text (Bytes encodeUtf8)
open LevelScript.Checker.Tree (allLexemes)
open Relation (ReflTransGen)

structure Branch where
  state : Nat
  tree : Tree

structure Builder where
  stack : List Branch
  feed : Feed

namespace Builder

def top : List Branch → Nat
  | [] => Table.start
  | branch :: _ => branch.state

inductive Step : Builder → Builder → Prop where
  | shift {stack : List Branch} {feed rest : Feed} {lexeme : Lexeme} {state : Nat} :
      feed.ahead? = some (lexeme, rest) →
      Table.next? (top stack) (.terminal lexeme.terminal) = some state →
      Step ⟨stack, feed⟩ ⟨⟨state, .leaf lexeme⟩ :: stack, rest⟩
  | reduce {above stack : List Branch} {feed rest : Feed} {lexeme : Lexeme}
      {production : Production} {state : Nat} :
      feed.ahead? = some (lexeme, rest) →
      Table.next? (top (above ++ stack)) (.terminal lexeme.terminal) = none →
      Table.reduction? (top (above ++ stack)) = some production →
      above.length = production.body.length →
      Table.next? (top stack) (.nonterminal production.head) = some state →
      Step ⟨above ++ stack, feed⟩
        ⟨⟨state, .node production (above.map Branch.tree).reverse⟩ :: stack, feed⟩

theorem Step.of_shift {stack : List Branch} {feed rest : Feed} {lexeme : Lexeme} {state : Nat}
    {b : Builder} (h : Step ⟨stack, feed⟩ b) (hahead : feed.ahead? = some (lexeme, rest))
    (hnext : Table.next? (top stack) (.terminal lexeme.terminal) = some state) :
    b = ⟨⟨state, .leaf lexeme⟩ :: stack, rest⟩ := by
  cases h with
  | shift hahead' hnext' =>
    cases hahead'.symm.trans hahead
    cases hnext'.symm.trans hnext
    rfl
  | reduce hahead' hnone _ _ _ =>
    cases hahead'.symm.trans hahead
    cases hnone.symm.trans hnext

theorem Step.of_reduce {above stack : List Branch} {feed rest : Feed} {lexeme : Lexeme}
    {production : Production} {state : Nat} {b : Builder} (h : Step ⟨above ++ stack, feed⟩ b)
    (hahead : feed.ahead? = some (lexeme, rest))
    (hnone : Table.next? (top (above ++ stack)) (.terminal lexeme.terminal) = none)
    (hreduction : Table.reduction? (top (above ++ stack)) = some production)
    (hlength : above.length = production.body.length)
    (hnext : Table.next? (top stack) (.nonterminal production.head) = some state) :
    b = ⟨⟨state, .node production (above.map Branch.tree).reverse⟩ :: stack, feed⟩ := by
  generalize hframes : above ++ stack = frames at h
  cases h with
  | shift hahead' hnext' =>
    cases hahead'.symm.trans hahead
    rw [hframes, hnext'] at hnone
    cases hnone
  | reduce _ _ hreduction' hlength' hnext' =>
    rw [hframes, hreduction'] at hreduction
    cases hreduction
    obtain ⟨rfl, rfl⟩ := List.append_inj hframes (hlength.trans hlength'.symm)
    cases hnext'.symm.trans hnext
    rfl

theorem step_unique : Relator.RightUnique Step := by
  intro a b c hb hc
  cases hb with
  | shift hahead hnext => exact (hc.of_shift hahead hnext).symm
  | reduce hahead hnone hreduction hlength hnext =>
    exact (hc.of_reduce hahead hnone hreduction hlength hnext).symm

/-- `Grows stack trees after`: the stack with the trees put on it. -/
inductive Grows : List Branch → List Tree → List Branch → Prop where
  | nil {stack : List Branch} : Grows stack [] stack
  | cons {stack after : List Branch} {tree : Tree} {trees : List Tree} {state : Nat} :
      Table.next? (top stack) tree.symbol = some state →
      Grows (⟨state, tree⟩ :: stack) trees after → Grows stack (tree :: trees) after

theorem Grows.branches {stack after : List Branch} {trees : List Tree}
    (h : Grows stack trees after) :
    ∃ above, after = above ++ stack ∧ (above.map Branch.tree).reverse = trees := by
  induction h with
  | nil => exact ⟨[], rfl, rfl⟩
  | @cons stack after tree trees state _ _ ih =>
    obtain ⟨above, rfl, rfl⟩ := ih
    exact ⟨above ++ [⟨state, tree⟩], by simp, by simp⟩

theorem grows_of_walk? {trees : List Tree} {stack : List Branch} {last : Nat}
    (h : Table.walk? (top stack) (trees.map Tree.symbol) = some last) :
    ∃ after, Grows stack trees after ∧ top after = last := by
  induction trees generalizing stack with
  | nil => exact ⟨stack, .nil, Option.some.inj h⟩
  | cons tree trees ih =>
    obtain ⟨state, hnext, hwalk⟩ := Option.bind_eq_some_iff.1 h
    obtain ⟨after, hgrows, htop⟩ := @ih (⟨state, tree⟩ :: stack) hwalk
    exact ⟨after, .cons hnext hgrows, htop⟩

/-- The builder builds the tree from its lexemes, when what stands after them may follow it. -/
def Builds (tree : Tree) : Prop :=
  ∀ {stack : List Branch} {state : Nat} {rest tail : Feed} {lexeme : Lexeme},
    Table.next? (top stack) tree.symbol = some state → rest.ahead? = some (lexeme, tail) →
    allows [tree.symbol] lexeme.terminal = true →
    ReflTransGen Step ⟨stack, .after tree.lexemes rest⟩ ⟨⟨state, tree⟩ :: stack, rest⟩

theorem ahead_allowed {symbol : GrammarSymbol} {symbols : List GrammarSymbol} {w : List Lexeme}
    {texts : List Bytes} {lines : List Line} {rest tail : Feed} {lexeme : Lexeme}
    (hparses : Parses symbols w texts lines) (hahead : rest.ahead? = some (lexeme, tail))
    (hallows : allows (symbol :: symbols) lexeme.terminal = true) :
    ∃ first after, (Feed.after w rest).ahead? = some (first, after) ∧
      allows [symbol] first.terminal = true := by
  cases symbol with
  | terminal t =>
    cases w with
    | nil => exact ⟨lexeme, tail, hahead, rfl⟩
    | cons first w => exact ⟨first, .after w rest, rfl, rfl⟩
  | nonterminal n =>
    obtain ⟨first, after, hfirst, hfollows⟩ := ahead_follows hparses hahead hallows
    exact ⟨first, after, hfirst, by simp [allows, startsOf, hfollows]⟩

theorem builds_all {trees : List Tree} (hvalid : ∀ tree ∈ trees, tree.Valid)
    (hbuilds : ∀ tree ∈ trees, Builds tree) {stack after : List Branch} {rest tail : Feed}
    {lexeme : Lexeme} (hgrows : Grows stack trees after)
    (hahead : rest.ahead? = some (lexeme, tail))
    (hallows : allows (trees.map Tree.symbol) lexeme.terminal = true) :
    ReflTransGen Step ⟨stack, .after (allLexemes trees) rest⟩ ⟨after, rest⟩ := by
  induction hgrows with
  | nil => exact .refl
  | @cons stack after tree trees state hnext _ ih =>
    obtain ⟨_, hrest⟩ := List.forall_mem_cons.1 hvalid
    obtain ⟨htree, htrees⟩ := List.forall_mem_cons.1 hbuilds
    have hparses := parses_trees fun tree htree => (hrest tree htree).parses
    obtain ⟨first, more, hfirst, hallowed⟩ := ahead_allowed hparses hahead hallows
    have hbuilt := htree hnext hfirst hallowed
    rw [← Feed.after_append] at hbuilt
    exact hbuilt.trans (ih hrest htrees (allows_tail hallows))

theorem builds {tree : Tree} (h : tree.Valid) : Builds tree := by
  induction h with
  | leaf lexeme =>
    intro stack state rest tail _ hnext _ _
    exact .single (.shift rfl hnext)
  | @node production children hbody hvalid ih =>
    intro stack state rest tail lexeme hnext hahead hallows
    have hfollows : lexeme.terminal ∈ production.head.followers := by
      simpa [allows, startsOf, Tree.symbol] using hallows
    -- the children are built on the stack, where their production is reduced
    obtain ⟨last, hwalk, hreduction⟩ := Table.walk?_body production.mem_all hnext
    rw [← hbody] at hwalk
    obtain ⟨after, hgrows, rfl⟩ := grows_of_walk? hwalk
    have hchildren := builds_all hvalid ih hgrows hahead
      (hbody ▸ production.closed.followers _ hfollows)
    obtain ⟨above, rfl, rfl⟩ := hgrows.branches
    have hlength : above.length = production.body.length := by
      simpa using congrArg List.length hbody
    obtain ⟨row, hrow, hproduction⟩ := Option.bind_eq_some_iff.1 hreduction
    have hnone : Table.next? (top (above ++ stack)) (.terminal lexeme.terminal) = none := by
      rw [Table.next?, hrow]
      exact Table.shift?_follower hrow hproduction hfollows
    exact hchildren.tail (.reduce hahead hnone hreduction hlength hnext)

def done (tree : Tree) : Builder :=
  ⟨[⟨Table.final, .leaf ⟨.endOfInput, []⟩⟩, ⟨1, tree⟩], .finish⟩

theorem not_step_done {tree : Tree} {b : Builder} : ¬ Step (done tree) b := by
  intro h
  generalize hstart : done tree = a at h
  cases h with
  | shift _ hnext =>
    cases hstart
    cases (Table.final_next? _).symm.trans hnext
  | reduce _ _ hreduction _ _ =>
    obtain ⟨hstack, _⟩ := Builder.mk.inj hstart
    rw [← hstack] at hreduction
    cases Table.final_reduction?.symm.trans hreduction

theorem builds_done {tree : Tree} (h : tree.OfProgram) :
    ReflTransGen Step ⟨[], .ofLexemes tree.lexemes⟩ (done tree) := by
  have hnext : Table.next? (top []) tree.symbol = some 1 := h.symbol ▸ Table.start_next?
  have hahead : Feed.finish.ahead? = some (⟨.endOfInput, []⟩, .finish) := rfl
  have hbuilt := builds h.valid hnext hahead (h.symbol ▸ rfl)
  exact hbuilt.tail (.shift hahead Table.program_next?)

end Builder

/-- A program has no more than one tree. -/
theorem Tree.OfProgram.unique {s t : Tree} (hs : s.OfProgram) (ht : t.OfProgram)
    (h : s.lexemes = t.lexemes) : s = t := by
  have hbuilt := Builder.builds_done ht
  rw [← h] at hbuilt
  have hends {a b : Tree} (hab : ReflTransGen Builder.Step (Builder.done a) (Builder.done b)) :
      a = b := by
    rcases hab.cases_head with heq | ⟨_, hstep, _⟩
    · cases heq
      rfl
    · exact absurd hstep Builder.not_step_done
  rcases ReflTransGen.total_of_right_unique Builder.step_unique (Builder.builds_done hs) hbuilt with
    hst | hts
  · exact hends hst
  · exact (hends hts).symm

theorem Feed.end_notMem_ofBytes (bytes : Bytes) :
    ∀ lexeme ∈ (Feed.ofBytes bytes).lexemes, lexeme.terminal ≠ .endOfInput := by
  fun_induction Feed.ofBytes bytes with
  | case1 => nofun
  | case2 => nofun
  | case3 => nofun
  | case4 _ _ _ _ _ _ _ ih => exact ih
  | case5 _ _ pattern _ _ _ terminal hterminal ih =>
    refine List.forall_mem_cons.2 ⟨?_, ih⟩
    rintro rfl
    cases pattern <;> cases hterminal

/-- The lexemes of a sentence have one tree. What is reported for a feed that is accepted are the
lines of the tree of its lexemes, between an opening and a closing line. The lexemes of bytes are
such that the end of the input is none of them. -/
theorem report_postorder :
    (∀ w : List Lexeme, w.map Lexeme.terminal ∈ grammar.language →
      ∃! tree : Tree, tree.OfProgram ∧ tree.lexemes = w) ∧
    (∀ feed : Feed, (∀ lexeme ∈ feed.lexemes, lexeme.terminal ≠ .endOfInput) →
      (Verdict.ofFeed feed).halt = .accepted →
      ∃ tree : Tree, tree.OfProgram ∧ feed = .ofLexemes tree.lexemes ∧
        (Verdict.ofFeed feed).lines = tree.lines ∧
        (Verdict.ofFeed feed).output = Verdict.printed
          ([encodeUtf8 "Iniciando análise do arquivo..."] ++ tree.lines.map Line.bytes ++
            [encodeUtf8 "Análise sintática concluída com sucesso!"])) ∧
    ∀ bytes : Bytes, ∀ lexeme ∈ (Feed.ofBytes bytes).lexemes, lexeme.terminal ≠ .endOfInput := by
  refine ⟨?_, ?_, Feed.end_notMem_ofBytes⟩
  · intro w hw
    obtain ⟨_, _, hparses⟩ := (mem_language_iff_parses w).1 hw
    obtain ⟨tree, htree, hlexemes, _⟩ := hparses.tree
    refine ⟨tree, ⟨htree, hlexemes⟩, ?_⟩
    rintro other ⟨hother, hsame⟩
    exact hother.unique htree (hsame.trans hlexemes.symm)
  · intro feed hend haccepted
    obtain ⟨n, c, hruns, hhalt, hlines⟩ := Verdict.runs_of_ofFeed (ne_of_eq_of_ne haccepted nofun)
    rw [haccepted] at hhalt
    obtain ⟨top, below, hstack, htop⟩ := Configuration.final_of_accepted hhalt
    obtain ⟨w, _, rfl, hparses⟩ := ((Invariant.init feed).runs hruns).sentence hend hstack htop
    obtain ⟨tree, htree, rfl, hreport⟩ := hparses.tree
    have hsame : (Verdict.ofFeed (.ofLexemes tree.lexemes)).lines = tree.lines :=
      hlines.trans hreport.symm
    refine ⟨tree, htree, rfl, hsame, ?_⟩
    rw [Verdict.output, haccepted, hsame]
    rfl

/-- A conditional, `if (true) { say("a"); } else { x[0] = 7; }`. -/
theorem conditional_report_postorder :
    let w : List Lexeme :=
      [⟨.keyword .ifWord, []⟩, ⟨.symbol .leftParen, []⟩, ⟨.keyword .trueWord, []⟩,
       ⟨.symbol .rightParen, []⟩, ⟨.symbol .leftBrace, []⟩, ⟨.keyword .say, []⟩,
       ⟨.symbol .leftParen, []⟩, ⟨.text, [34, 97, 34]⟩, ⟨.symbol .rightParen, []⟩,
       ⟨.symbol .semicolon, []⟩, ⟨.symbol .rightBrace, []⟩, ⟨.keyword .elseWord, []⟩,
       ⟨.symbol .leftBrace, []⟩, ⟨.identifier, [120]⟩, ⟨.symbol .leftBracket, []⟩,
       ⟨.number, [48]⟩, ⟨.symbol .rightBracket, []⟩, ⟨.symbol .assign, []⟩, ⟨.number, [55]⟩,
       ⟨.symbol .semicolon, []⟩, ⟨.symbol .rightBrace, []⟩]
    (∀ lexeme ∈ w, lexeme.terminal ≠ .endOfInput) ∧
      (Verdict.ofFeed (.ofLexemes w)).halt = .accepted ∧
      ∃! tree : Tree, (tree.OfProgram ∧ tree.lexemes = w) ∧
        tree.lines = [.boolean true, .say [97], .number 0, .number 7, .elementAssignment [120],
          .conditional] := by
  intro w
  have hend : ∀ lexeme ∈ (Feed.ofLexemes w).lexemes, lexeme.terminal ≠ .endOfInput := by decide
  have haccepted : (Verdict.ofFeed (.ofLexemes w)).halt = .accepted := by decide +kernel
  have hlines : (Verdict.ofFeed (.ofLexemes w)).lines = [.boolean true, .say [97], .number 0,
      .number 7, .elementAssignment [120], .conditional] := by decide +kernel
  obtain ⟨tree, htree, hfeed, hreport, _⟩ := report_postorder.2.1 _ hend haccepted
  have hlexemes : tree.lexemes = w := by
    rw [← Feed.lexemes_ofLexemes tree.lexemes, ← hfeed, Feed.lexemes_ofLexemes]
  refine ⟨by decide, haccepted, tree, ⟨⟨htree, hlexemes⟩, hreport.symm.trans hlines⟩, ?_⟩
  rintro other ⟨⟨hother, hsame⟩, _⟩
  exact hother.unique htree (hsame.trans hlexemes.symm)

end LevelScript.Checker

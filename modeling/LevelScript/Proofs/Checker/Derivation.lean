import LevelScript.Checker.Automaton
import Mathlib.Computability.ContextFreeGrammar

set_option autoImplicit false

abbrev ContextFreeRule.Output (T N : Type) : Type :=
  List (Symbol T N)

namespace LevelScript.Checker

open Text (Bytes)

def form (symbols : List GrammarSymbol) : ContextFreeRule.Output Terminal Nonterminal :=
  symbols.map fun
    | .terminal t => .terminal t
    | .nonterminal n => .nonterminal n

def Production.rule (production : Production) : ContextFreeRule Terminal Nonterminal :=
  ⟨production.head, form production.body⟩

def grammar : ContextFreeGrammar Terminal :=
  ⟨Nonterminal, .program, (Production.all.map Production.rule).toFinset⟩

theorem Production.mem_all (production : Production) : production ∈ Production.all := by
  cases production <;> decide

theorem mem_rules_iff (rule : ContextFreeRule Terminal Nonterminal) :
    rule ∈ grammar.rules ↔ ∃ production : Production, production.rule = rule := by
  refine List.mem_toFinset.trans (List.mem_map.trans ?_)
  simp only [Production.mem_all, true_and]

/-- `Parses symbols lexemes texts lines`: the symbols derive the terminals of the lexemes. The texts
are those of the symbols, where a nonterminal has none, and the lines are reported on the way. -/
inductive Parses : List GrammarSymbol → List Lexeme → List Bytes → List Line → Prop where
  | nil : Parses [] [] [] []
  | terminal {lexeme : Lexeme} {symbols : List GrammarSymbol} {w : List Lexeme}
      {texts : List Bytes} {lines : List Line} :
      Parses symbols w texts lines →
      Parses (.terminal lexeme.terminal :: symbols) (lexeme :: w) (lexeme.text :: texts) lines
  | production {production : Production} {symbols : List GrammarSymbol} {u w : List Lexeme}
      {parts texts : List Bytes} {inner lines : List Line} :
      Parses production.body u parts inner → Parses symbols w texts lines →
      Parses (.nonterminal production.head :: symbols) (u ++ w) ([] :: texts)
        (inner ++ ((production.line? parts).toList ++ lines))

namespace Parses

theorem append {u v : List GrammarSymbol} {w x : List Lexeme} {s t : List Bytes}
    {k l : List Line} (hu : Parses u w s k) (hv : Parses v x t l) :
    Parses (u ++ v) (w ++ x) (s ++ t) (k ++ l) := by
  induction hu with
  | nil => exact hv
  | terminal _ ih => exact .terminal ih
  | production hp _ _ ih => simpa using Parses.production hp ih

theorem split {u v : List GrammarSymbol} {w : List Lexeme} {texts : List Bytes}
    {lines : List Line} (h : Parses (u ++ v) w texts lines) :
    ∃ a b s t k l, w = a ++ b ∧ texts = s ++ t ∧ lines = k ++ l ∧
      Parses u a s k ∧ Parses v b t l := by
  generalize he : u ++ v = symbols at h
  induction h generalizing u with
  | nil =>
    obtain ⟨rfl, rfl⟩ := List.append_eq_nil_iff.1 he
    exact ⟨[], [], [], [], [], [], rfl, rfl, rfl, .nil, .nil⟩
  | @terminal lexeme symbols w texts lines h ih =>
    cases u with
    | nil =>
      obtain rfl : v = _ := he
      exact ⟨[], _, [], _, [], _, rfl, rfl, rfl, .nil, .terminal h⟩
    | cons symbol u =>
      obtain ⟨rfl, htail⟩ := List.cons_eq_cons.1 he
      obtain ⟨a, b, s, t, k, l, rfl, rfl, rfl, hu, hv⟩ := ih htail
      exact ⟨lexeme :: a, b, lexeme.text :: s, t, k, l, rfl, rfl, rfl, .terminal hu, hv⟩
  | @production production symbols x w parts texts inner lines hp h _ ih =>
    cases u with
    | nil =>
      obtain rfl : v = _ := he
      exact ⟨[], _, [], _, [], _, rfl, rfl, rfl, .nil, .production hp h⟩
    | cons symbol u =>
      obtain ⟨rfl, htail⟩ := List.cons_eq_cons.1 he
      obtain ⟨a, b, s, t, k, l, rfl, rfl, rfl, hu, hv⟩ := ih htail
      exact ⟨x ++ a, b, [] :: s, t, inner ++ ((production.line? parts).toList ++ k), l,
        by simp, rfl, by simp, .production hp hu, hv⟩

theorem length_texts {symbols : List GrammarSymbol} {w : List Lexeme} {texts : List Bytes}
    {lines : List Line} (h : Parses symbols w texts lines) : texts.length = symbols.length := by
  induction h with
  | nil => rfl
  | terminal _ ih => simp [ih]
  | production _ _ _ ih => simp [ih]

theorem exists_lexeme {symbols : List GrammarSymbol} {w : List Lexeme} {texts : List Bytes}
    {lines : List Line} {t : Terminal} (h : Parses symbols w texts lines)
    (ht : .terminal t ∈ symbols) : ∃ lexeme ∈ w, lexeme.terminal = t := by
  induction h with
  | nil => cases ht
  | @terminal lexeme _ _ _ _ _ ih =>
    rcases List.mem_cons.1 ht with heq | ht
    · exact ⟨lexeme, List.mem_cons_self, (GrammarSymbol.terminal.inj heq).symm⟩
    · obtain ⟨found, hmem, hfound⟩ := ih ht
      exact ⟨found, List.mem_cons_of_mem _ hmem, hfound⟩
  | production _ _ _ ih =>
    rcases List.mem_cons.1 ht with heq | ht
    · cases heq
    · obtain ⟨found, hmem, hfound⟩ := ih ht
      exact ⟨found, List.mem_append_right _ hmem, hfound⟩

theorem derives {symbols : List GrammarSymbol} {w : List Lexeme} {texts : List Bytes}
    {lines : List Line} (h : Parses symbols w texts lines) :
    grammar.Derives (form symbols) ((w.map Lexeme.terminal).map .terminal) := by
  induction h with
  | nil => exact .refl _
  | terminal _ ih => exact ih.append_left [.terminal _]
  | @production production symbols u w _ _ _ _ _ _ ihu ihw =>
    have hstep : grammar.Produces [.nonterminal production.head] (form production.body) :=
      ⟨production.rule, (mem_rules_iff _).2 ⟨production, rfl⟩,
        ContextFreeRule.Rewrites.input_output⟩
    rw [List.map_append, List.map_append]
    exact ((hstep.trans_derives ihu).append_right (form symbols)).trans (ihw.append_left _)

theorem terminals (w : List Lexeme) :
    Parses (w.map fun lexeme => .terminal lexeme.terminal) w (w.map Lexeme.text) [] := by
  induction w with
  | nil => exact .nil
  | cons lexeme w ih => exact .terminal ih

theorem fold {production : Production} {u v : List GrammarSymbol} {w : List Lexeme}
    (h : ∃ texts lines, Parses (u ++ production.body ++ v) w texts lines) :
    ∃ texts lines, Parses (u ++ [.nonterminal production.head] ++ v) w texts lines := by
  obtain ⟨_, _, h⟩ := h
  obtain ⟨_, c, _, _, _, _, rfl, rfl, rfl, hub, hv⟩ := h.split
  obtain ⟨a, b, _, _, _, _, rfl, rfl, rfl, hu, hb⟩ := hub.split
  have hfolded := hu.append (Parses.production hb hv)
  rw [List.append_assoc, List.append_assoc]
  exact ⟨_, _, hfolded⟩

theorem folded {production : Production} {u : List GrammarSymbol} {w : List Lexeme}
    {s t : List Bytes} {lines : List Line} (h : Parses (u ++ production.body) w (s ++ t) lines)
    (ht : t.length = production.body.length) :
    Parses (u ++ [.nonterminal production.head]) w (s ++ [[]])
      (lines ++ (production.line? t).toList) := by
  obtain ⟨a, b, s', t', k, l, rfl, htexts, rfl, hparsed, hbody⟩ := h.split
  obtain ⟨rfl, rfl⟩ := List.append_inj' htexts (ht.trans hbody.length_texts.symm)
  have hfolded := hparsed.append (Parses.production hbody .nil)
  rw [List.append_nil, List.append_nil] at hfolded
  rw [List.append_assoc]
  exact hfolded

end Parses

theorem form_append (u v : List GrammarSymbol) : form (u ++ v) = form u ++ form v :=
  List.map_append

theorem form_injective {u v : List GrammarSymbol} (h : form u = form v) : u = v := by
  refine List.map_injective_iff.2 ?_ h
  rintro (_ | _) (_ | _) h <;> cases h <;> rfl

theorem form_eq_append {symbols : List GrammarSymbol} {n : Nonterminal}
    {a b : ContextFreeRule.Output Terminal Nonterminal}
    (h : form symbols = a ++ [.nonterminal n] ++ b) :
    ∃ u v, symbols = u ++ [.nonterminal n] ++ v ∧ form u = a ∧ form v = b := by
  obtain ⟨ua, v, rfl, hua, rfl⟩ := List.map_eq_append_iff.1 h
  obtain ⟨u, middle, rfl, rfl, hm⟩ := List.map_eq_append_iff.1 hua
  obtain rfl : middle = [.nonterminal n] := form_injective hm
  exact ⟨u, v, rfl, rfl, rfl⟩

theorem parses_of_derives {w : List Lexeme} {symbols : List GrammarSymbol}
    (h : grammar.Derives (form symbols) ((w.map Lexeme.terminal).map .terminal)) :
    ∃ texts lines, Parses symbols w texts lines := by
  -- the induction takes the first rewriting step off the derivation
  generalize hs : form symbols = source at h
  induction h using Relation.ReflTransGen.head_induction_on generalizing symbols with
  | refl =>
    obtain rfl : symbols = w.map fun lexeme => .terminal lexeme.terminal := by
      refine form_injective (hs.trans ?_)
      rw [form, List.map_map, List.map_map]
      rfl
    exact ⟨_, _, .terminals w⟩
  | head hstep _ ih =>
    obtain ⟨rule, hrule, hrewrites⟩ := hstep
    obtain ⟨production, rfl⟩ := (mem_rules_iff rule).1 hrule
    obtain ⟨a, b, rfl, rfl⟩ := hrewrites.exists_parts
    obtain ⟨u, v, rfl, rfl, rfl⟩ := form_eq_append hs
    refine Parses.fold (ih ?_)
    rw [form_append, form_append]
    rfl

theorem mem_language_iff_parses (w : List Lexeme) :
    w.map Lexeme.terminal ∈ grammar.language ↔
      ∃ texts lines, Parses [.nonterminal .program] w texts lines := by
  constructor
  · intro h
    exact @parses_of_derives w [.nonterminal .program] h
  · rintro ⟨_, _, h⟩
    exact h.derives

end LevelScript.Checker

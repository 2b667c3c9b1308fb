import LevelScript.Proofs.Checker.Soundness

set_option autoImplicit false

/-!
# What has been read can be completed

Every nonterminal can be written somehow, and every state is within a production whose rest leads
on to a state that reduces it. So whatever stands on the stack can be completed: the production that
the top is within is written to its end and reduced, until the whole program is left.
-/

namespace LevelScript.Checker

open Text (Bytes)

/-- How deep the simplest parse of a nonterminal is. -/
def Nonterminal.height : Nonterminal → Nat
  | .program | .optionalResultType | .parameters | .members | .commands | .optionalElse
  | .optionalExpression | .optionalList => 0
  | .baseType | .functionDeclaration | .entityDeclaration | .result | .block | .action | .factor
  | .lengthCall | .literal | .arrayLiteral | .boolean => 1
  | .declaration | .type | .member | .command | .term => 2
  | .parameter | .sum => 3
  | .parameterList | .relation => 4
  | .logical => 5
  | .expression => 6
  | .variableDeclaration | .assignment | .conditional | .loop | .access | .list => 7

def GrammarSymbol.height : GrammarSymbol → Nat
  | .terminal _ => 0
  | .nonterminal n => n.height

theorem GrammarSymbol.height_lt (symbol : GrammarSymbol) : symbol.height < 8 := by
  cases symbol with
  | terminal _ => exact Nat.zero_lt_succ 7
  | nonterminal n => cases n <;> decide

theorem Nonterminal.simplest (n : Nonterminal) :
    ∃ production ∈ Production.all, production.head = n ∧
      ∀ symbol ∈ production.body, symbol.height < n.height := by
  cases n <;> decide +kernel

theorem exists_parses_of_height_lt {bound : Nat} {symbols : List GrammarSymbol}
    (h : ∀ symbol ∈ symbols, symbol.height < bound) :
    ∃ w texts lines, Parses symbols w texts lines := by
  induction bound generalizing symbols with
  | zero =>
    cases symbols with
    | nil => exact ⟨[], [], [], .nil⟩
    | cons symbol symbols => exact absurd (h symbol List.mem_cons_self) (Nat.not_lt_zero _)
  | succ bound ih =>
    induction symbols with
    | nil => exact ⟨[], [], [], .nil⟩
    | cons symbol symbols ihs =>
      obtain ⟨hsymbol, hsymbols⟩ := List.forall_mem_cons.1 h
      obtain ⟨w, texts, lines, hrest⟩ := ihs hsymbols
      cases symbol with
      | terminal t =>
        have hfirst := @Parses.terminal ⟨t, []⟩ _ _ _ _ hrest
        exact ⟨_, _, _, hfirst⟩
      | nonterminal n =>
        obtain ⟨production, _, rfl, hbody⟩ := n.simplest
        obtain ⟨u, parts, inner, hparsed⟩ :=
          ih fun part hpart => Nat.lt_of_lt_of_le (hbody part hpart) (Nat.le_of_lt_succ hsymbol)
        exact ⟨_, _, _, Parses.production hparsed hrest⟩

theorem exists_parses (symbols : List GrammarSymbol) :
    ∃ w texts lines, Parses symbols w texts lines :=
  exists_parses_of_height_lt fun symbol _ => symbol.height_lt

/-- What a symbol on the stack counts for. -/
def weight (symbol : GrammarSymbol) : Nat :=
  (2 - potential symbol).toNat

def weightOf : List GrammarSymbol → Nat
  | [] => 0
  | symbol :: symbols => weight symbol + weightOf symbols

theorem weightOf_append (u v : List GrammarSymbol) :
    weightOf (u ++ v) = weightOf u + weightOf v := by
  induction u with
  | nil => exact (Nat.zero_add _).symm
  | cons symbol u ih => rw [List.cons_append, weightOf, ih, weightOf, Nat.add_assoc]

namespace Table

/-- Whether a state is within a production after its first `k` symbols: the others lead on to where
it is reduced, and its head counts for less than the first ones. -/
def within (state : Nat) (production : Production) (k : Nat) : Bool :=
  Nat.blt (weight (.nonterminal production.head)) (weightOf (production.body.take k)) &&
    (walk? state (production.body.drop k)).bind reduction? == some production

/-- A state is within a production that has the state's symbol at its place, unless it is one of
those where nothing or all of the program has been read. -/
theorem states_within :
    (states.all fun row =>
      row.2 == start || row.2 == 1 || row.2 == final ||
        row.1.symbol.any fun symbol =>
          Production.all.any fun production =>
            production.body.zipIdx.any fun place =>
              symbol == place.1 && within row.2 production (place.2 + 1)) = true := by
  decide +kernel

theorem exists_within {state : Nat} {row : TableRow} (hrow : row? state = some row)
    (hstart : state ≠ start) (hprogram : state ≠ 1) (hfinal : state ≠ final) :
    ∃ (production : Production) (k last : Nat),
      walk? state (production.body.drop k) = some last ∧ reduction? last = some production ∧
      weight (.nonterminal production.head) < weightOf (production.body.take k) := by
  have hwithin := List.all_eq_true.1 states_within (row, state) (mem_states hrow)
  simp only [Bool.or_eq_true, beq_iff_eq, hstart, hprogram, hfinal, false_or] at hwithin
  cases hsymbol : row.symbol with
  | none =>
    rw [hsymbol] at hwithin
    cases hwithin
  | some symbol =>
    rw [hsymbol] at hwithin
    obtain ⟨production, _, hplaces⟩ := List.any_eq_true.1 hwithin
    obtain ⟨place, _, hplace⟩ := List.any_eq_true.1 hplaces
    simp only [within, Bool.and_eq_true, beq_iff_eq, Nat.blt_eq] at hplace
    obtain ⟨_, hweight, hwalk⟩ := hplace
    obtain ⟨last, hlast, hreduction⟩ := Option.bind_eq_some_iff.1 hwalk
    exact ⟨production, place.2 + 1, last, hlast, hreduction, hweight⟩

end Table

theorem Walks.exists_row {symbols : List GrammarSymbol} {texts : List Bytes} {top : Frame}
    {below : List Frame} (h : Walks [⟨Table.start, []⟩] symbols texts (top :: below)) :
    ∃ row, Table.row? top.state = some row := by
  rcases h.last_cases with ⟨_, hstack⟩ | ⟨_, _, _, _, _, _, _, rfl, hstack, _, hnext⟩
  · obtain ⟨rfl, _⟩ := List.cons_eq_cons.1 hstack
    obtain ⟨row, hrow, _⟩ := Table.entry_of_next? Table.start_next?
    exact ⟨row, hrow⟩
  · obtain ⟨rfl, _⟩ := List.cons_eq_cons.1 hstack
    obtain ⟨row, hrow, _⟩ := Option.bind_eq_some_iff.1 (Table.symbol?_of_next? hnext)
    exact ⟨row, hrow⟩

theorem Walks.nothing {symbols : List GrammarSymbol} {texts : List Bytes} {top : Frame}
    {below : List Frame} (h : Walks [⟨Table.start, []⟩] symbols texts (top :: below))
    (htop : top.state = Table.start) : symbols = [] := by
  rcases h.last_cases with ⟨hnil, _⟩ | ⟨_, _, _, _, _, state, _, _, hstack, _, hnext⟩
  · exact hnil
  · obtain ⟨rfl, _⟩ := List.cons_eq_cons.1 hstack
    obtain rfl : state = Table.start := htop
    cases Table.start_symbol?.symm.trans (Table.symbol?_of_next? hnext)

theorem Walks.completed {symbols : List GrammarSymbol} {texts : List Bytes} {top : Frame}
    {below : List Frame} {u : List Lexeme} {lines : List Line}
    (hwalks : Walks [⟨Table.start, []⟩] symbols texts (top :: below))
    (hparses : Parses symbols u texts lines) (hfinal : top.state ≠ Table.final) :
    ∃ v texts more, Parses [.nonterminal .program] (u ++ v) texts (lines ++ more) := by
  -- the symbols on the stack count for less each time a production is completed and reduced
  generalize hsize : weightOf symbols = size
  induction size using Nat.strong_induction_on generalizing symbols texts top below u lines with
  | _ size ih =>
    by_cases hstart : top.state = Table.start
    · obtain rfl := hwalks.nothing hstart
      cases hparses
      obtain ⟨v, texts, more, hprogram⟩ := exists_parses [.nonterminal .program]
      exact ⟨v, texts, more, hprogram⟩
    by_cases hprogram : top.state = 1
    · obtain rfl := hwalks.program hprogram
      exact ⟨[], texts, [], by simpa using hparses⟩
    obtain ⟨row, hrow⟩ := hwalks.exists_row
    obtain ⟨production, k, last, hwalk, hreduction, hweight⟩ :=
      Table.exists_within hrow hstart hprogram hfinal
    -- the rest of the production is written
    obtain ⟨v, parts, inner, hrest⟩ := exists_parses (production.body.drop k)
    obtain ⟨above, frames, hmore, rfl⟩ := Walks.of_walk? hwalk hrest.length_texts rfl below
    obtain ⟨before, s, t, base, under, state, hsymbols, htexts, hbefore, hbody, hnext⟩ :=
      (hwalks.append hmore).reducible hreduction
    -- the production is reduced
    have hread := hparses.append hrest
    rw [hsymbols, htexts] at hread
    have hfolded := hread.folded hbody.length_texts
    have hput := hbefore.append (.single hnext [])
    have hbegun : symbols = before ++ production.body.take k := by
      refine List.append_cancel_right (hsymbols.trans ?_)
      rw [List.append_assoc, List.take_append_drop]
    have hless : weightOf (before ++ [.nonterminal production.head]) < size := by
      rw [← hsize, hbegun, weightOf_append, weightOf_append, weightOf, weightOf, Nat.add_zero]
      exact Nat.add_lt_add_left hweight _
    have hstate : state ≠ Table.final := by
      rintro rfl
      have hsymbol := Table.symbol?_of_next? hnext
      rw [Table.symbol?, Table.final_row?] at hsymbol
      cases hsymbol
    obtain ⟨w, rest, more, hwhole⟩ := ih _ hless hput hfolded hstate rfl
    refine ⟨v ++ w, rest, inner ++ ((production.line? t).toList ++ more), ?_⟩
    simpa only [List.append_assoc] using hwhole

end LevelScript.Checker

import LevelScript.Checker.Automaton
import Mathlib.Data.List.Basic
import Mathlib.Tactic.MkIffOfInductiveProp

set_option autoImplicit false

namespace LevelScript.Checker

open Text (Bytes)

def TableRow.target? (row : TableRow) : GrammarSymbol → Option Nat
  | .terminal t => row.shift? t
  | .nonterminal n => row.goto? n

def TableRow.entries (row : TableRow) : List (GrammarSymbol × Nat) :=
  row.shifts.map (fun shift => (.terminal shift.1, shift.2)) ++
    row.gotos.map fun goto => (.nonterminal goto.1, goto.2)

theorem TableRow.mem_entries {row : TableRow} {symbol : GrammarSymbol} {state : Nat}
    (h : row.target? symbol = some state) : (symbol, state) ∈ row.entries := by
  cases symbol with
  | terminal t =>
    obtain ⟨u, v, hrow, _⟩ := List.lookup_eq_some_iff.1 h
    simp [TableRow.entries, hrow]
  | nonterminal n =>
    obtain ⟨u, v, hrow, _⟩ := List.lookup_eq_some_iff.1 h
    simp [TableRow.entries, hrow]

namespace Table

def states : List (TableRow × Nat) :=
  (rowsFrom0 ++ rowsFrom60 ++ rowsFrom120).zipIdx

theorem row?_eq (state : Nat) : row? state = (rowsFrom0 ++ rowsFrom60 ++ rowsFrom120)[state]? := by
  rw [row?, rows, List.getElem?_toArray]

theorem mem_states {row : TableRow} {state : Nat} (h : row? state = some row) :
    (row, state) ∈ states := by
  rw [states, List.mem_zipIdx_iff_getElem?, ← h, row?_eq]

def symbol? (state : Nat) : Option GrammarSymbol :=
  (row? state).bind TableRow.symbol

def reduction? (state : Nat) : Option Production :=
  (row? state).bind TableRow.reduction

def next? (state : Nat) (symbol : GrammarSymbol) : Option Nat :=
  (row? state).bind fun row => row.target? symbol

theorem next?_nonterminal (state : Nat) (n : Nonterminal) :
    next? state (.nonterminal n) = (row? state).bind fun row => row.goto? n :=
  rfl

def walk? (state : Nat) : List GrammarSymbol → Option Nat
  | [] => some state
  | symbol :: symbols => (next? state symbol).bind fun after => walk? after symbols

def before (targets : List Nat) : List Nat :=
  (states.filter fun row => row.1.entries.any fun entry => targets.any (Nat.beq entry.2)).map
    Prod.snd

/-- Whether all paths to the given states end with the symbols, the last of which comes first. -/
def spelled (targets : List Nat) : List GrammarSymbol → Bool
  | [] => true
  | symbol :: symbols =>
    targets.all (fun state => symbol? state = some symbol) &&
      (symbols.isEmpty || spelled (before targets) symbols)

@[mk_iff] structure Coherent (row : TableRow) (state : Nat) : Prop where
  symbol : ∀ entry ∈ row.entries, symbol? entry.2 = some entry.1
  body : ∀ production ∈ Production.all, (row.goto? production.head).isSome ↔
    (walk? state production.body).bind reduction? = some production
  spelled : ∀ production ∈ row.reduction, spelled [state] production.body.reverse = true
  program : ∀ entry ∈ row.entries, entry.2 = 1 → state = start
  endOfInput : ∀ entry ∈ row.entries, entry.1 = .terminal .endOfInput →
    state = 1 ∧ entry.2 = final

instance (row : TableRow) (state : Nat) : Decidable (Coherent row state) :=
  decidable_of_iff' _ (coherent_iff row state)

theorem states_coherent : ∀ row ∈ states, Coherent row.1 row.2 := by
  decide +kernel

theorem coherent_of_row? {row : TableRow} {state : Nat} (h : row? state = some row) :
    Coherent row state :=
  states_coherent (row, state) (mem_states h)

theorem entry_of_next? {state after : Nat} {symbol : GrammarSymbol}
    (h : next? state symbol = some after) :
    ∃ row, row? state = some row ∧ (symbol, after) ∈ row.entries := by
  obtain ⟨row, hrow, htarget⟩ := Option.bind_eq_some_iff.1 h
  exact ⟨row, hrow, TableRow.mem_entries htarget⟩

theorem symbol?_of_next? {state after : Nat} {symbol : GrammarSymbol}
    (h : next? state symbol = some after) : symbol? after = some symbol := by
  obtain ⟨row, hrow, hentry⟩ := entry_of_next? h
  exact (coherent_of_row? hrow).symbol (symbol, after) hentry

theorem walk?_body {state after : Nat} {production : Production}
    (hall : production ∈ Production.all)
    (h : next? state (.nonterminal production.head) = some after) :
    ∃ last, walk? state production.body = some last ∧ reduction? last = some production := by
  obtain ⟨row, hrow, hgoto⟩ := Option.bind_eq_some_iff.1 h
  have hbody := (coherent_of_row? hrow).body production hall
  exact Option.bind_eq_some_iff.1 (hbody.1 (Option.isSome_of_eq_some hgoto))

theorem exists_row?_of_walk? {state last : Nat} {symbols : List GrammarSymbol}
    {production : Production} (hwalk : walk? state symbols = some last)
    (hreduction : reduction? last = some production) : ∃ row, row? state = some row := by
  cases symbols with
  | nil =>
    obtain rfl : state = last := Option.some.inj hwalk
    obtain ⟨row, hrow, _⟩ := Option.bind_eq_some_iff.1 hreduction
    exact ⟨row, hrow⟩
  | cons symbol symbols =>
    obtain ⟨_, hnext, _⟩ := Option.bind_eq_some_iff.1 hwalk
    obtain ⟨row, hrow, _⟩ := entry_of_next? hnext
    exact ⟨row, hrow⟩

theorem next?_of_walk? {state last : Nat} {production : Production}
    (hall : production ∈ Production.all)
    (hwalk : walk? state production.body = some last)
    (hreduction : reduction? last = some production) :
    ∃ after, next? state (.nonterminal production.head) = some after := by
  obtain ⟨row, hrow⟩ := exists_row?_of_walk? hwalk hreduction
  have hbody := (coherent_of_row? hrow).body production hall
  have hreduced : (walk? state production.body).bind reduction? = some production :=
    Option.bind_eq_some_iff.2 ⟨last, hwalk, hreduction⟩
  obtain ⟨after, hgoto⟩ := Option.isSome_iff_exists.1 (hbody.2 hreduced)
  exact ⟨after, Option.bind_eq_some_iff.2 ⟨row, hrow, hgoto⟩⟩

theorem mem_before {state after : Nat} {symbol : GrammarSymbol} {targets : List Nat}
    (h : next? state symbol = some after) (hafter : after ∈ targets) : state ∈ before targets := by
  obtain ⟨row, hrow, hentry⟩ := entry_of_next? h
  have hany : targets.any (Nat.beq after) = true :=
    List.any_eq_true.2 ⟨after, hafter, Nat.beq_refl after⟩
  exact List.mem_map.2 ⟨(row, state),
    List.mem_filter.2 ⟨mem_states hrow, List.any_eq_true.2 ⟨_, hentry, hany⟩⟩, rfl⟩

theorem spelled_reduction {state : Nat} {production : Production}
    (h : reduction? state = some production) :
    spelled [state] production.body.reverse = true := by
  obtain ⟨row, hrow, hreduction⟩ := Option.bind_eq_some_iff.1 h
  exact (coherent_of_row? hrow).spelled production hreduction

theorem start_symbol? : symbol? start = none := by
  rw [symbol?, row?_eq]
  rfl

theorem start_next? : next? start (.nonterminal .program) = some 1 := by
  rw [next?, row?_eq]
  rfl

theorem program_next? : next? 1 (.terminal .endOfInput) = some final := by
  rw [next?, row?_eq]
  rfl

theorem final_row? : row? final = some ⟨some (.terminal .endOfInput), [], none, []⟩ := by
  rw [row?_eq]
  rfl

theorem final_next? (symbol : GrammarSymbol) : next? final symbol = none := by
  rw [next?, final_row?]
  cases symbol <;> rfl

theorem final_reduction? : reduction? final = none := by
  rw [reduction?, final_row?]
  rfl

theorem start_of_next? {state : Nat} {symbol : GrammarSymbol} (h : next? state symbol = some 1) :
    state = start := by
  obtain ⟨row, hrow, hentry⟩ := entry_of_next? h
  exact (coherent_of_row? hrow).program (symbol, 1) hentry rfl

theorem next?_endOfInput {state after : Nat}
    (h : next? state (.terminal .endOfInput) = some after) : state = 1 ∧ after = final := by
  obtain ⟨row, hrow, hentry⟩ := entry_of_next? h
  exact (coherent_of_row? hrow).endOfInput (.terminal .endOfInput, after) hentry rfl

end Table

end LevelScript.Checker

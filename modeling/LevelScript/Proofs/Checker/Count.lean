import LevelScript.Proofs.Checker.Feed
import LevelScript.Proofs.Checker.Numeral
import LevelScript.Proofs.Checker.Progress
import LevelScript.Proofs.Checker.StackDepth
import LevelScript.Proofs.Checker.Unambiguity

set_option autoImplicit false

namespace LevelScript.Checker

open Text (Bytes encodeUtf8)

def Line.count? : Line → Option Int
  | .wait count | .number count => some count
  | _ => none

def counts (lines : List Line) : List Int :=
  lines.filterMap Line.count?

def numerals (w : List Lexeme) : List Bytes :=
  (w.filter fun lexeme => lexeme.terminal = .number).map Lexeme.text

def unreported (symbols : List GrammarSymbol) (texts : List Bytes) : List Bytes :=
  ((symbols.zip texts).filter fun entry => entry.1 = .terminal .number).map Prod.snd

theorem counts_append (k l : List Line) : counts (k ++ l) = counts k ++ counts l :=
  List.filterMap_append

theorem numerals_append (u w : List Lexeme) : numerals (u ++ w) = numerals u ++ numerals w := by
  rw [numerals, List.filter_append, List.map_append]
  rfl

theorem unreported_eq_nil {symbols : List GrammarSymbol} (h : .terminal .number ∉ symbols)
    (texts : List Bytes) : unreported symbols texts = [] := by
  rw [unreported, List.map_eq_nil_iff, List.filter_eq_nil_iff]
  rintro ⟨symbol, text⟩ hmem
  have hne : symbol ≠ .terminal .number := fun heq => h (heq ▸ (List.of_mem_zip hmem).1)
  simpa using hne

def NumbersLast (symbols : List GrammarSymbol) : Prop :=
  symbols.Pairwise fun before after => before = .terminal .number → after.terminal?.isSome

namespace Production

theorem numbersLast_body (production : Production) : NumbersLast production.body := by
  unfold NumbersLast
  cases production <;> decide

theorem counts_of_notMem {production : Production} (h : .terminal .number ∉ production.body)
    (texts : List Bytes) : counts (production.line? texts).toList = [] := by
  -- the first three texts are enough
  rcases texts with _ | ⟨first, _ | ⟨second, _ | ⟨third, rest⟩⟩⟩ <;> cases production <;>
    first | rfl | exact absurd (by decide) h

theorem counts_line? {production : Production} {texts : List Bytes}
    (h : texts.length = production.body.length) :
    counts (production.line? texts).toList =
      (unreported production.body texts).map Lexeme.number := by
  by_cases hmem : .terminal .number ∈ production.body
  · obtain rfl | rfl : production = .literalNumber ∨ production = .actionWait := by
      cases production <;> revert hmem <;> decide
    · obtain ⟨digits, rfl⟩ := List.length_eq_one_iff.1 h
      rfl
    · rcases texts with _ | ⟨_, _ | ⟨_, _ | ⟨digits, rest⟩⟩⟩
      iterate 3 cases h
      have hrest : unreported [.terminal (.symbol .rightParen), .terminal (.symbol .semicolon)] rest =
          [] :=
        unreported_eq_nil (by decide) rest
      exact congrArg (fun more => (digits :: more).map Lexeme.number) hrest.symm
  · rw [counts_of_notMem hmem, unreported_eq_nil hmem]
    rfl

end Production

namespace Parses

variable {symbols : List GrammarSymbol} {w : List Lexeme} {texts : List Bytes} {lines : List Line}

theorem lines_of_terminals (h : Parses symbols w texts lines)
    (hsymbols : ∀ symbol ∈ symbols, symbol.terminal?.isSome) : lines = [] := by
  induction h with
  | nil => rfl
  | terminal _ ih => exact ih (List.forall_mem_cons.1 hsymbols).2
  | production => cases (List.forall_mem_cons.1 hsymbols).1

theorem numbers (h : Parses symbols w texts lines) (hlast : NumbersLast symbols) :
    (numerals w).map Lexeme.number =
      counts lines ++ (unreported symbols texts).map Lexeme.number := by
  induction h with
  | nil => rfl
  | @terminal lexeme symbols w texts lines hparses ih =>
    obtain ⟨hafter, hrest⟩ := List.pairwise_cons.1 hlast
    by_cases hnumber : lexeme.terminal = .number
    · -- nothing has been reported after the number
      have hlines := hparses.lines_of_terminals fun symbol hmem =>
        hafter symbol hmem (congrArg _ hnumber)
      rw [hlines] at ih ⊢
      simpa [numerals, unreported, counts, hnumber] using ih hrest
    · simpa [numerals, unreported, hnumber] using ih hrest
  | @production production symbols u w parts texts inner lines hbody _ ihbody ih =>
    have hline := production.counts_line? hbody.length_texts
    rw [numerals_append, List.map_append, ihbody production.numbersLast_body,
      ih (List.pairwise_cons.1 hlast).2, counts_append, counts_append, hline]
    simp [unreported]

end Parses

namespace Table

def numbered : List Nat := [37, 101, 139, 161]

theorem states_numbered : ∀ row ∈ states, ∀ entry ∈ row.1.entries,
    (entry.1 = .terminal .number → entry.2 ∈ numbered) ∧
      (row.2 ∈ numbered → entry.2 ∈ numbered ∧ entry.1.terminal?.isSome) := by
  decide +kernel

theorem numbered_next? {state after : Nat} {symbol : GrammarSymbol}
    (h : next? state symbol = some after) :
    (symbol = .terminal .number → after ∈ numbered) ∧
      (state ∈ numbered → after ∈ numbered ∧ symbol.terminal?.isSome) := by
  obtain ⟨row, hrow, hentry⟩ := entry_of_next? h
  exact states_numbered (row, state) (mem_states hrow) (symbol, after) hentry

end Table

theorem Walks.numbersLast {symbols : List GrammarSymbol} {texts : List Bytes} {top : Frame}
    {below : List Frame} (h : Walks [⟨Table.start, []⟩] symbols texts (top :: below)) :
    NumbersLast symbols ∧ (.terminal .number ∈ symbols → top.state ∈ Table.numbered) := by
  refine h.top_induction (motive := fun symbols state =>
    NumbersLast symbols ∧ (.terminal .number ∈ symbols → state ∈ Table.numbered))
    ⟨.nil, fun hmem => absurd hmem List.not_mem_nil⟩ ?_
  intro before symbol state after hbefore hnext
  obtain ⟨hlast, hnumbered⟩ := hbefore
  obtain ⟨hnumber, hkept⟩ := Table.numbered_next? hnext
  constructor
  · refine List.pairwise_append.2 ⟨hlast, List.pairwise_singleton _ _, ?_⟩
    intro earlier hearlier later hlater heq
    obtain rfl := List.mem_singleton.1 hlater
    exact (hkept (hnumbered (heq ▸ hearlier))).2
  · intro hmem
    rcases List.mem_append.1 hmem with hmem | hmem
    · exact (hkept (hnumbered hmem)).1
    · exact hnumber (List.mem_singleton.1 hmem).symm

theorem Parses.numbers_program {w : List Lexeme} {texts : List Bytes} {lines : List Line}
    (h : Parses [.nonterminal .program] w texts lines) :
    (numerals w).map Lexeme.number = counts lines := by
  rw [h.numbers (List.pairwise_singleton _ _), unreported_eq_nil (by decide)]
  exact List.append_nil _

theorem Invariant.counts_lead {feed : Feed} {n : Nat} {c : Configuration}
    (h : Invariant feed n c) :
    counts c.lines.reverse <+: (numerals feed.lexemes).map Lexeme.number := by
  cases h with
  | finished hfeed _ _ hparses _ =>
    rw [hfeed, Feed.lexemes_ofLexemes, hparses.numbers_program]
  | reading hfeed hwalks hparses _ =>
    obtain ⟨top, below, hstack⟩ := hwalks.exists_top
    have hnumbers := hparses.numbers (hstack ▸ hwalks).numbersLast.1
    rw [hfeed, Feed.lexemes_after, numerals_append, List.map_append, hnumbers, List.append_assoc]
    exact List.prefix_append _ _

namespace Verdict

theorem counts_lead (feed : Feed) :
    counts (ofFeed feed).lines <+: (numerals feed.lexemes).map Lexeme.number := by
  obtain ⟨n, c, hruns, _, hlines⟩ := runs_of_ofFeed (halt_ne_stuck feed)
  rw [hlines]
  exact ((Invariant.init feed).runs hruns).counts_lead

theorem counts_of_accepted {feed : Feed}
    (hend : ∀ lexeme ∈ feed.lexemes, lexeme.terminal ≠ .endOfInput)
    (h : (ofFeed feed).halt = .accepted) :
    counts (ofFeed feed).lines = (numerals feed.lexemes).map Lexeme.number := by
  obtain ⟨n, c, hruns, hhalt, hlines⟩ := runs_of_ofFeed (halt_ne_stuck feed)
  rw [h] at hhalt
  obtain ⟨top, below, hstack, htop⟩ := Configuration.final_of_accepted hhalt
  obtain ⟨w, _, hfeed, hparses⟩ := ((Invariant.init feed).runs hruns).sentence hend hstack htop
  rw [hlines, ← hparses.numbers_program, hfeed, Feed.lexemes_ofLexemes]

end Verdict

def called (keyword : Keyword) (digits : Bytes) : List Lexeme :=
  [⟨.keyword keyword, encodeUtf8 keyword.spelling⟩, opening, ⟨.number, digits⟩, closing,
   ⟨.symbol .semicolon, [59]⟩]

theorem Scanner.take?_keyword (keyword : Keyword) (rest : Bytes) :
    take? (encodeUtf8 keyword.spelling ++ Pattern.byte '(' :: rest) =
      some (.word keyword, (encodeUtf8 keyword.spelling).length) := by
  cases keyword <;> rfl

namespace Feed

theorem ofBytes_keyword (keyword : Keyword) (rest : Bytes) :
    ofBytes (encodeUtf8 keyword.spelling ++ Pattern.byte '(' :: rest) =
      .next ⟨.keyword keyword, encodeUtf8 keyword.spelling⟩
        (ofBytes (Pattern.byte '(' :: rest)) := by
  have htake := Scanner.take?_keyword keyword rest
  obtain ⟨b, more, hspelling⟩ : ∃ b more, encodeUtf8 keyword.spelling = b :: more := by
    cases keyword <;> exact ⟨_, _, rfl⟩
  rw [hspelling] at htake ⊢
  rw [List.cons_append, Scanner.take?_eq_first?] at htake
  rw [List.cons_append, ofBytes_next htake rfl, List.length_cons, Nat.add_sub_cancel,
    List.take_succ_cons, List.take_left, List.drop_left]

theorem ofBytes_opening (rest : Bytes) :
    ofBytes (Pattern.byte '(' :: rest) = .next opening (ofBytes rest) := by
  have htake : Scanner.take? (Pattern.byte '(' :: rest) = some (.mark .leftParen, 1) := by
    cases rest <;> rfl
  rw [Scanner.take?_eq_first?] at htake
  rw [ofBytes_next htake rfl]
  rfl

theorem ofBytes_called (keyword : Keyword) {digits : Bytes} (hne : digits ≠ [])
    (hdigits : ∀ b ∈ digits, Pattern.isDigit b = true) :
    ofBytes (encodeUtf8 keyword.spelling ++ Pattern.byte '(' :: (digits ++ encodeUtf8 ");")) =
      .ofLexemes (called keyword digits) := by
  have hclosing : ofBytes (encodeUtf8 ");") = .ofLexemes [closing, ⟨.symbol .semicolon, [59]⟩] := by
    decide +kernel
  rw [ofBytes_keyword, ofBytes_opening, ofBytes_digits hne hdigits (by decide +kernel), hclosing]
  rfl

end Feed

namespace Parses

theorem program_of_action {w : List Lexeme} {lines : List Line}
    (h : Parses [.nonterminal .action] w [[]] lines) :
    Parses [.nonterminal .program] w [[]] lines := by
  have hprogram : Parses [.nonterminal .program] w [[]] (lines ++ [] ++ []) :=
    node .programCommand ((node .programEmpty .nil).append (node .commandAction h))
  rwa [List.append_nil, List.append_nil] at hprogram

theorem called_wait (digits : Bytes) :
    Parses [.nonterminal .program] (called .wait digits) [[]] [.wait (Lexeme.number digits)] :=
  program_of_action (node .actionWait (terminals (called .wait digits)))

theorem called_move (digits : Bytes) :
    Parses [.nonterminal .program] (called .move digits) [[]]
      [.number (Lexeme.number digits), .move] := by
  have hnumber := expression_of_factor
    (node .factorLiteral (node .literalNumber (terminals [⟨.number, digits⟩])))
  have hopened := terminals [⟨.keyword .move, encodeUtf8 Keyword.move.spelling⟩, opening]
  have hclosed := terminals [closing, ⟨.symbol .semicolon, [59]⟩]
  exact program_of_action (node .actionMove (hopened.append (hnumber.append hclosed)))

end Parses

theorem Verdict.ofBytes_called {keyword : Keyword} {digits : Bytes} {texts : List Bytes}
    {lines : List Line} (hne : digits ≠ []) (hdigits : ∀ b ∈ digits, Pattern.isDigit b = true)
    (h : Parses [.nonterminal .program] (called keyword digits) texts lines) :
    ofBytes (encodeUtf8 keyword.spelling ++ Pattern.byte '(' :: (digits ++ encodeUtf8 ");")) =
      ⟨.accepted, lines⟩ := by
  have hdeepest : Terminal.deepest ((called keyword digits).map Lexeme.terminal) = 1 := rfl
  rw [ofBytes, Feed.ofBytes_called keyword hne hdigits]
  refine verdict_of_parses h (roomy_of_deepest ?_)
  rw [Feed.lexemes_ofLexemes, hdeepest]
  decide

/-- A numeral of any length is reported as the low 32 bits, with a sign, of the number `n` that it
stands for, or of `2 ^ 63 - 1` if that is less. This is `n` if and only if `n` is less than `2 ^ 31`,
and -1 from `2 ^ 63 - 1` on. It is printed so by itself and as what is waited for, and it is reported
so wherever it stands in a source: what the report shows at its place among the numbers of the source
is this, and an accepted source has it there. -/
theorem numeral_reported (digits : Bytes) (hne : digits ≠ [])
    (hdigits : ∀ b ∈ digits, Pattern.isDigit b = true) :
    let n := Lexeme.decimal digits
    let count := (BitVec.ofNat 32 (min n (2 ^ 63 - 1))).toInt
    (count = n ↔ n < 2 ^ 31) ∧ (2 ^ 63 - 1 ≤ n → count = -1) ∧
    (Verdict.ofBytes (encodeUtf8 "wait(" ++ digits ++ encodeUtf8 ");")).output =
      Verdict.printed [encodeUtf8 "Iniciando análise do arquivo...",
        encodeUtf8 ("Ação: wait " ++ toString count),
        encodeUtf8 "Análise sintática concluída com sucesso!"] ∧
    (Verdict.ofBytes (encodeUtf8 "move(" ++ digits ++ encodeUtf8 ");")).output =
      Verdict.printed [encodeUtf8 "Iniciando análise do arquivo...",
        encodeUtf8 ("Número: " ++ toString count), encodeUtf8 "Ação: move",
        encodeUtf8 "Análise sintática concluída com sucesso!"] ∧
    ∀ bytes before after, (Feed.ofBytes bytes).lexemes = before ++ ⟨.number, digits⟩ :: after →
      let reported := (counts (Verdict.ofBytes bytes).lines)[(numerals before).length]?
      (∀ shown, reported = some shown → shown = count) ∧
        ((Verdict.ofBytes bytes).halt = .accepted → reported = some count) := by
  intro n count
  have hcount : Lexeme.number digits = count := Lexeme.number_eq hdigits
  have htext : Numeral.decimal count = toString count := by
    generalize count = k
    cases k <;> rfl
  refine ⟨Lexeme.toInt_low_eq_iff n, Lexeme.toInt_low_of_le, ?_, ?_, ?_⟩
  · have hverdict := Verdict.ofBytes_called hne hdigits (.called_wait digits)
    rw [hcount] at hverdict
    rw [← htext]
    exact congrArg Verdict.output hverdict
  · have hverdict := Verdict.ofBytes_called hne hdigits (.called_move digits)
    rw [hcount] at hverdict
    rw [← htext]
    exact congrArg Verdict.output hverdict
  · intro bytes before after hlexemes reported
    have hplace : ((numerals (Feed.ofBytes bytes).lexemes).map Lexeme.number)[
        (numerals before).length]? = some count := by
      rw [hlexemes, numerals_append, List.map_append,
        List.getElem?_append_right (by rw [List.length_map]), List.length_map, Nat.sub_self]
      exact congrArg some hcount
    constructor
    · intro shown hshown
      obtain ⟨hlt, rfl⟩ := List.getElem?_eq_some_iff.1 hshown
      have hlead := List.prefix_iff_getElem?.1 (Verdict.counts_lead (.ofBytes bytes)) _ hlt
      exact Option.some.inj (hlead.symm.trans hplace)
    · intro haccepted
      rw [← hplace, ← Verdict.counts_of_accepted (Feed.end_notMem_ofBytes bytes) haccepted]
      rfl

/-- In `x = 7; wait(0009223372036854775808);` the second numeral is `2 ^ 63`, with zeros before
it. -/
theorem cut_numeral_reported :
    let digits := encodeUtf8 "0009223372036854775808"
    let bytes := encodeUtf8 "x = 7; wait(0009223372036854775808);"
    digits ≠ [] ∧ digits.all Pattern.isDigit = true ∧ Lexeme.decimal digits = 2 ^ 63 ∧
    (Verdict.ofBytes (encodeUtf8 "wait(" ++ digits ++ encodeUtf8 ");")).output =
      Verdict.printed [encodeUtf8 "Iniciando análise do arquivo...", encodeUtf8 "Ação: wait -1",
        encodeUtf8 "Análise sintática concluída com sucesso!"] ∧
    (numerals (Feed.ofBytes bytes).lexemes)[1]? = some digits ∧
    (Verdict.ofBytes bytes).halt = .accepted ∧
    (counts (Verdict.ofBytes bytes).lines)[1]? = some (-1) := by
  intro digits bytes
  let before : List Lexeme :=
    [⟨.identifier, [120]⟩, ⟨.symbol .assign, [61]⟩, ⟨.number, [55]⟩, ⟨.symbol .semicolon, [59]⟩,
     ⟨.keyword .wait, encodeUtf8 "wait"⟩, opening]
  have hne : digits ≠ [] := by decide +kernel
  have hdigits : digits.all Pattern.isDigit = true := by decide +kernel
  have hn : Lexeme.decimal digits = 2 ^ 63 := by decide +kernel
  have hlexemes : (Feed.ofBytes bytes).lexemes =
      before ++ ⟨.number, digits⟩ :: [closing, ⟨.symbol .semicolon, [59]⟩] := by
    decide +kernel
  have haccepted : (Verdict.ofBytes bytes).halt = .accepted := by decide +kernel
  obtain ⟨_, hcut, houtput, _, hplaces⟩ :=
    numeral_reported digits hne (List.all_eq_true.1 hdigits)
  have hcount := hcut (hn ▸ Nat.sub_le _ _)
  have hreported := (hplaces bytes before _ hlexemes).2 haccepted
  rw [hcount] at houtput hreported
  refine ⟨hne, hdigits, hn, houtput, ?_, haccepted, hreported⟩
  rw [hlexemes]
  rfl

end LevelScript.Checker

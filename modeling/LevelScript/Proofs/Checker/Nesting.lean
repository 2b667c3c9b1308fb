import LevelScript.Proofs.Checker.Acceptance

set_option autoImplicit false

namespace LevelScript.Checker

open Text (Bytes)

open LevelScript.Checker.Configuration (Runs stackLimit)

def opening : Lexeme := ⟨.symbol .leftParen, [40]⟩

def closing : Lexeme := ⟨.symbol .rightParen, [41]⟩

def parenthesised (depth : Nat) : List Lexeme :=
  List.replicate depth opening ++ ⟨.number, [49]⟩ :: List.replicate depth closing

def header : List Lexeme :=
  [⟨.identifier, [120]⟩, ⟨.symbol .colon, [58]⟩, ⟨.keyword .number, [110, 117, 109, 98, 101, 114]⟩,
   ⟨.symbol .assign, [61]⟩]

/-- A declaration with a one in parentheses, as in `x: number = ((1));`. -/
def nested (depth : Nat) : List Lexeme :=
  header ++ (parenthesised depth ++ [⟨.symbol .semicolon, [59]⟩])

theorem parenthesised_succ (depth : Nat) :
    parenthesised (depth + 1) = opening :: (parenthesised depth ++ [closing]) := by
  rw [parenthesised, List.replicate_succ, List.replicate_succ', parenthesised]
  simp

namespace Parses

theorem node (production : Production) {u : List Lexeme} {parts : List Bytes} {lines : List Line}
    (h : Parses production.body u parts lines) :
    Parses [.nonterminal production.head] u [[]] (lines ++ (production.line? parts).toList) := by
  simpa using Parses.production h .nil

theorem expression_of_factor {u : List Lexeme} {count : Int}
    (h : Parses [.nonterminal .factor] u [[]] [.number count]) :
    Parses [.nonterminal .expression] u [[]] [.number count] :=
  node .expression (node .logicalFirst (node .relationFirst (node .sumFirst (node .termFirst h))))

theorem parenthesised (depth : Nat) :
    Parses [.nonterminal .expression] (parenthesised depth) [[]] [.number 1] := by
  apply expression_of_factor
  induction depth with
  | zero => exact node .factorLiteral (node .literalNumber (terminals [⟨.number, [49]⟩]))
  | succ depth ih =>
    rw [parenthesised_succ]
    have hclosed : Parses [.nonterminal .expression, .terminal (.symbol .rightParen)]
        (Checker.parenthesised depth ++ [closing]) [[], [41]] [.number 1] :=
      (expression_of_factor ih).append (terminals [closing])
    exact node .factorGroup ((terminals [opening]).append hclosed)

theorem nested (depth : Nat) :
    Parses [.nonterminal .program] (nested depth) [[]] [.number 1, .variable [120]] := by
  have hname := terminals [⟨.identifier, [120]⟩, ⟨.symbol .colon, [58]⟩]
  have htype := node .typeBase
    (node .baseNumber (terminals [⟨.keyword .number, [110, 117, 109, 98, 101, 114]⟩]))
  have hvalue := (terminals [⟨.symbol .assign, [61]⟩]).append
    ((Parses.parenthesised depth).append (terminals [⟨.symbol .semicolon, [59]⟩]))
  have hbody : Parses (Production.body .variableDeclaration) (Checker.nested depth)
      [[120], [58], [], [61], [], [59]] [.number 1] :=
    hname.append (htype.append hvalue)
  exact node .programDeclaration
    ((node .programEmpty .nil).append (node .declarationVariable (node .variableDeclaration hbody)))

end Parses

theorem runs_opening {c : Configuration} {top : Frame} {below : List Frame} {count : Nat}
    {rest : Feed} (hstack : c.stack = top :: below)
    (hnext : Table.next? top.state (.terminal (.symbol .leftParen)) = some 42)
    (hroom : c.stack.length + count ≤ stackLimit)
    (hfeed : c.feed = .after (List.replicate count opening) rest) :
    ∃ d, Runs count c d ∧ d.stack.length = c.stack.length + count ∧ d.lines = c.lines := by
  induction count generalizing c top below with
  | zero => exact ⟨c, .refl c, rfl, rfl⟩
  | succ count ih =>
    have hahead : c.feed.ahead? = some (opening, .after (List.replicate count opening) rest) := by
      rw [hfeed]
      rfl
    have hstep := Configuration.step_shift hstack (by omega) hahead hnext
    have hagain : Table.next? 42 (.terminal (.symbol .leftParen)) = some 42 := by
      rw [Table.next?, Table.row?_eq]
      rfl
    obtain ⟨d, hruns, hlength, hlines⟩ := @ih ⟨⟨42, [40]⟩ :: c.stack, _, [40], c.lines⟩ _ _ rfl
      hagain (by rw [List.length_cons]; omega) rfl
    rw [List.length_cons] at hlength
    exact ⟨d, .head hstep hruns, by omega, hlines⟩

set_option maxRecDepth 8000 in
theorem runs_header (rest : Feed) :
    ∃ c top below, Runs 7 (.start (.after header rest)) c ∧ c.stack = top :: below ∧
      c.stack.length = 6 ∧ c.lines = [] ∧ c.feed = rest ∧
      Table.next? top.state (.terminal (.symbol .leftParen)) = some 42 := by
  refine ⟨⟨[⟨107, [61]⟩, ⟨69, []⟩, ⟨30, [58]⟩, ⟨3, [120]⟩, ⟨1, []⟩, ⟨0, []⟩], rest, [61], []⟩, _, _,
    ?_, rfl, rfl, rfl, rfl, ?_⟩
  · exact .head rfl (.head rfl (.head rfl (.head rfl (.head rfl (.head rfl (.single rfl))))))
  · rw [Table.next?, Table.row?_eq]
    rfl

theorem Configuration.step_full {c : Configuration} {top : Frame} {below : List Frame}
    (hstack : c.stack = top :: below) (hfull : stackLimit ≤ c.stack.length) :
    c.step = .halt (.stackFull c.last) := by
  obtain ⟨stack, feed, last, lines⟩ := c
  obtain rfl : stack = top :: below := hstack
  simp only [step, hfull, if_true]

/-- Where the parentheses fill the stack nothing is reported. Six frames are below the first of
them. -/
theorem verdict_nested {depth : Nat} (h : stackLimit ≤ depth + 6) :
    ∃ text, Verdict.ofFeed (.ofLexemes (nested depth)) = ⟨.stackFull text, []⟩ := by
  obtain ⟨count, hcount⟩ : ∃ count, 6 + count = stackLimit := ⟨9994, rfl⟩
  obtain ⟨more, rfl⟩ : ∃ more, depth = count + more := ⟨depth - count, by omega⟩
  obtain ⟨w, hw⟩ : ∃ w, nested (count + more) = header ++ (List.replicate count opening ++ w) := by
    rw [nested, parenthesised, List.replicate_add, List.append_assoc, List.append_assoc]
    exact ⟨_, rfl⟩
  have hparts : Feed.ofLexemes (nested (count + more)) =
      .after header (.after (List.replicate count opening) (.ofLexemes w)) := by
    rw [hw, Feed.ofLexemes, Feed.after_append, Feed.after_append]
    rfl
  obtain ⟨c, top, below, hbegin, hstack, hlength, hlines, hfeed, hnext⟩ :=
    runs_header (.after (List.replicate count opening) (.ofLexemes w))
  obtain ⟨d, hopening, hdlength, hdlines⟩ := runs_opening hstack hnext (by omega) hfeed
  obtain ⟨last, frames, hframes⟩ : ∃ last frames, d.stack = last :: frames := by
    apply List.exists_cons_of_length_pos
    omega
  have hhalt := Configuration.step_full hframes (by omega)
  rw [← hparts] at hbegin
  have hsize : count < (nested (count + more)).length := by
    simp [nested, parenthesised]
    omega
  have hsteps : 7 + count < 64 * ((Feed.ofLexemes (nested (count + more))).length + 2) := by
    rw [Feed.length_ofLexemes]
    omega
  have hverdict := Verdict.ofFeed_eq (hbegin.trans hopening) hhalt hsteps
  rw [hdlines, hlines] at hverdict
  exact ⟨d.last, hverdict⟩

end LevelScript.Checker

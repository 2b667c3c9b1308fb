import LevelScript.Proofs.Evaluation.Purity
import LevelScript.Proofs.Parser.Printing
import LevelScript.Session

set_option autoImplicit false

namespace LevelScript

/-- An expression whose result may be a variable: a name, what a function hands back, or one of
these after plus signs. -/
def Node.isReference : Node → Bool
  | .identifier _ _ | .call _ _ _ => true
  | .unary _ .plus operand => operand.isReference
  | _ => false

/-- A value of its own, which no assignment changes. -/
def Operand.IsTemporary (operand : Operand) : Prop :=
  ∃ type value, operand = .temporary type value

theorem Operand.IsTemporary.value_eq {operand : Operand} (h : operand.IsTemporary)
    (forest later : Forest) : operand.value later = operand.value forest := by
  obtain ⟨type, value, rfl⟩ := h
  rfl

namespace Evaluation

variable {functions : Bool} {eval : Evaluator} {scope : ScopeId}

theorem gives_unless {α β : Type} {property : α → Prop} {p : Prop} [Decidable p] {cause : Fault}
    {f : β → Evaluation α} {x : Evaluation α} (hx : Gives property x) :
    Gives property (if p then raise cause >>= f else x) := by
  split
  · exact nofun
  · exact hx

theorem gives_temporary (type : TypeName) (value : Value) :
    Gives Operand.IsTemporary (pure (.temporary type value)) :=
  gives_pure ⟨type, value, rfl⟩

theorem binary_temporary (op : BinaryOp) (left right : Option Operand) :
    Gives Operand.IsTemporary (binary op left right) := by
  cases left with
  | none => exact gives_raise _
  | some left =>
    cases right with
    | none => exact gives_raise _
    | some right =>
      exact .after _ fun _ => .after _ fun _ => .after _ fun found => gives_temporary _ _

theorem unary_temporary {op : UnaryOp} {operand : Option Operand} (hop : op ∈ [.plus, .minus])
    (h : op = .plus → ∀ given ∈ operand, given.IsTemporary) :
    Gives Operand.IsTemporary (unary op operand) := by
  simp only [List.mem_cons, List.not_mem_nil, or_false] at hop
  cases operand with
  | none => exact gives_raise _
  | some operand =>
    rcases hop with rfl | rfl
    · exact gives_pure (h rfl operand rfl)
    · exact gives_unless (.after _ fun _ => .after _ fun _ => gives_temporary _ _)

theorem element_temporary (array index : Value) :
    Gives Operand.IsTemporary (element array index) := by
  refine .after _ fun _ => gives_unless (.after _ fun _ => .after _ fun _ => ?_)
  exact gives_unless (.after _ fun _ => gives_temporary _ _)

theorem access_temporary (array index : Node) :
    Gives Operand.IsTemporary (access eval scope array index) := by
  refine .after _ fun result => ?_
  cases result with
  | none => exact gives_raise _
  | some array =>
    refine gives_unless (.after _ fun result => ?_)
    cases result with
    | none => exact gives_raise _
    | some index =>
      exact gives_unless (.after _ fun _ => .after _ fun _ => element_temporary _ _)

theorem length_temporary (array : Node) :
    Gives Operand.IsTemporary (length eval scope array) :=
  .after _ fun _ => .after _ fun _ => gives_unless (.after _ fun _ => .after _ fun _ =>
    gives_temporary _ _)

def TemporaryOn (functions : Bool) (eval : Evaluator) : Prop :=
  ∀ node scope, Sourced functions .expression node → node.isReference = false →
    Gives (fun result => ∀ operand ∈ result, operand.IsTemporary) (eval node scope)

theorem step_temporaryOn (rounds : Nat) (he : TemporaryOn functions eval) :
    TemporaryOn functions (step rounds eval) := by
  intro node scope hnode hreference
  have handed {x : Evaluation Operand} (hx : Gives Operand.IsTemporary x) :
      Gives (fun result => ∀ operand ∈ result, operand.IsTemporary)
        (x >>= fun operand => pure (some operand)) := by
    refine hx.bind fun operand hoperand => gives_pure ?_
    rintro _ ⟨⟩
    exact hoperand
  cases hnode with
  | number | boolean | text =>
    refine gives_pure ?_
    rintro _ ⟨⟩
    exact ⟨_, _, rfl⟩
  | identifier | call => cases hreference
  | binary => exact .after _ fun _ => .after _ fun _ => handed (binary_temporary _ _ _)
  | @unary id op operand hop ho =>
    cases op with
    | plus =>
      refine (he operand scope ho hreference).bind fun result hresult => ?_
      exact handed (unary_temporary hop fun _ => hresult)
    | minus | not | other => exact .after _ fun _ => handed (unary_temporary hop nofun)
  | array =>
    refine .after _ fun _ => gives_pure ?_
    rintro _ ⟨⟩
    exact ⟨_, _, rfl⟩
  | access => exact handed (access_temporary _ _)
  | length => exact handed (length_temporary _)

theorem evaluate_temporaryOn (rounds depth : Nat) :
    TemporaryOn functions (evaluate rounds depth) := by
  induction depth with
  | zero => exact fun _ _ _ _ => nofun
  | succ depth ih => exact step_temporaryOn rounds ih

/-- An operator that gives a result was applied to the values that its operands have then. -/
theorem binary_ok {op : BinaryOp} {left right : Option Operand} {result : Operand}
    {world last : World} (h : (binary op left right).run world = (.ok result, last)) :
    ∃ l r type value, left = some l ∧ right = some r ∧ last = world ∧
      op.apply l.type (l.value world.forest) r.type (r.value world.forest) = .ok (type, value) ∧
      result = .temporary type value := by
  cases left with
  | none => cases h
  | some l =>
    cases right with
    | none => cases h
    | some r =>
      obtain ⟨_, _, hread, h⟩ := exists_of_run_bind_ok h
      cases hread
      obtain ⟨_, _, hread, h⟩ := exists_of_run_bind_ok h
      cases hread
      obtain ⟨found, _, happly, h⟩ := exists_of_run_bind_ok h
      rw [run_ofExcept] at happly
      split at happly
      · next applied happlied =>
        cases happly
        cases h
        exact ⟨l, r, found.1, found.2, rfl, rfl, rfl, happlied, rfl⟩
      · cases happly

end Evaluation

/-- Where an operator of a parsed program is evaluated and gives a result, its operands have been
evaluated from left to right, and the result is the operator applied to the values that both have
after the right one. This is the value that the left operand had when it was evaluated, if the left
operand is neither a name nor a call, also after plus signs, or if the right one calls no
function. -/
theorem operands_read_last (built : Nat) (source : String) (tree : Node) (state : ParseState Lexer)
    (id : Nat) (op : BinaryOp) (left right : Node)
    (h : Construct.program.parse built source = .ok (tree, state))
    (hnode : (Node.binary id op left right).Within tree) (rounds depth : Nat) (scope : ScopeId)
    (world last : World) (result : Option Operand)
    (hrun : (Evaluation.evaluate rounds (depth + 1) (.binary id op left right) scope).run world =
      (.ok result, last)) :
    ∃ between l r type value,
      (Evaluation.evaluate rounds depth left scope).run world = (.ok (some l), between) ∧
      (Evaluation.evaluate rounds depth right scope).run between = (.ok (some r), last) ∧
      op.apply l.type (l.value last.forest) r.type (r.value last.forest) = .ok (type, value) ∧
      result = some (.temporary type value) ∧
      (left.isReference = false ∨ right.CallFree →
        l.value last.forest = l.value between.forest) := by
  obtain ⟨_, nodes, m, hreads, rfl, _⟩ := program_reads h
  have htree : Sourced true .command (.block (m + 1) nodes) := .block (hreads.sourced (.inl rfl))
  obtain ⟨role, hsourced⟩ := htree.within hnode
  obtain ⟨hl, hr⟩ : Sourced true .expression left ∧ Sourced true .expression right := by
    cases hsourced with
    | binary _ hl hr => exact ⟨hl, hr⟩
  obtain ⟨first, between, hleft, hrest⟩ := Evaluation.exists_of_run_bind_ok hrun
  obtain ⟨second, after, hright, hrest⟩ := Evaluation.exists_of_run_bind_ok hrest
  obtain ⟨operand, ended, hbinary, hdone⟩ := Evaluation.exists_of_run_bind_ok hrest
  cases hdone
  obtain ⟨l, r, type, value, rfl, rfl, rfl, happly, rfl⟩ := Evaluation.binary_ok hbinary
  refine ⟨between, l, r, type, value, hleft, hright, happly, rfl, ?_⟩
  rintro (hreference | hfree)
  · have htemporary := Evaluation.evaluate_temporaryOn rounds depth left scope hl hreference
    exact (htemporary world between (some l) hleft l rfl).value_eq _ _
  · have hstill := (Evaluation.evaluate_stillOn rounds depth right scope hr hfree).run between
    rw [hright] at hstill
    rw [← hstill]

/-- In `say(-x+f());` the function assigns ten to `x`, which was one, and returns five. The left
operand is not changed by that. -/
theorem negated_operand_kept :
    ∃ tree state left right world last between l r,
      Construct.program.parse 0 "say(-x+f());" = .ok (tree, state) ∧
      (Node.binary 4 (.arithmetic .add) left right).Within tree ∧ left.isReference = false ∧
      (Evaluation.evaluate 1 9 (.binary 4 (.arithmetic .add) left right) 0).run world =
        (.ok (some (.temporary .number (.number 4))), last) ∧
      (world.forest.rows 0).map (·.value.integer?) = [some 1, none] ∧
      (last.forest.rows 0).map (·.value.integer?) = [some 10, none] ∧
      (Evaluation.evaluate 1 8 left 0).run world = (.ok (some l), between) ∧
      (Evaluation.evaluate 1 8 right 0).run between = (.ok (some r), last) ∧
      l.value last.forest = l.value between.forest := by
  have hwritten : Written [.keyword .say, .symbol .leftParen, .symbol .minus, .identifier "x",
      .symbol .plus, .identifier "f", .symbol .leftParen, .symbol .rightParen, .symbol .rightParen,
      .symbol .semicolon] "say(-x+f());".toList :=
    .token (.token (.token (.token (.token (.token (.token (.token (.token (.token .nil)))))))))
  obtain ⟨hfault, hwords⟩ := hwritten.words (by decide +kernel) (by decide +kernel)
  rw [String.ofList_toList] at hfault hwords
  have hleft : Reads .factor 0 [.symbol .minus, .identifier "x"]
      [.unary 2 .minus (.identifier 1 "x")] 2 :=
    .signed rfl .name
  have hright : Reads .factor 2 [.identifier "f", .symbol .leftParen, .symbol .rightParen]
      [.call 3 "f" []] 3 :=
    .call .noItems
  have hsum : Reads .expression 0 [.symbol .minus, .identifier "x", .symbol .plus,
      .identifier "f", .symbol .leftParen, .symbol .rightParen]
      [.binary 4 (.arithmetic .add) (.unary 2 .minus (.identifier 1 "x")) (.call 3 "f" [])] 4 :=
    Reads.loosen (k := .sum)
      (.binary rfl (hleft.loosen (by decide)) (hright.loosen (by decide))) (by decide)
  have hsaid : Keyword.say ∈ Keyword.actions := by decide
  have hreads := Reads.programNext (by decide) (.action hsaid (.someItems (.itemLast hsum)))
    .programEnd
  obtain ⟨d, hparse⟩ := program_parses hfault (by rw [hwords]; exact hreads)
  have hwithin : (Node.binary 4 (.arithmetic .add) (.unary 2 .minus (.identifier 1 "x"))
      (.call 3 "f" [])).Within (.block 6 [.action 5 .say [.binary 4 (.arithmetic .add)
        (.unary 2 .minus (.identifier 1 "x")) (.call 3 "f" [])]]) :=
    .inside List.mem_cons_self (.inside List.mem_cons_self (.root _))
  have hresult : ∃ world last, (Evaluation.evaluate 1 9 (.binary 4 (.arithmetic .add)
      (.unary 2 .minus (.identifier 1 "x")) (.call 3 "f" [])) 0).run world =
        (.ok (some (.temporary .number (.number 4))), last) ∧
      (world.forest.rows 0).map (·.value.integer?) = [some 1, none] ∧
      (last.forest.rows 0).map (·.value.integer?) = [some 10, none] :=
    ⟨⟨⟨#[⟨[], [⟨"x", .number, .number 1, 4, false⟩, ⟨"f", .number,
      .function ⟨0, "f", some .number, [.identifier 0 "f", .block 0
        [.assignment 0 (.identifier 0 "x") (.number 0 10), .result 0 (some (.number 0 5))]]⟩, 8,
      true⟩], 12⟩]⟩, #[], .numbered⟩, _, rfl, rfl, rfl⟩
  obtain ⟨world, last, hrun, hbefore, hafter⟩ := hresult
  obtain ⟨between, l, r, _, _, hl, hr, _, _, hkept⟩ :=
    operands_read_last 0 _ _ _ 4 _ _ _ hparse hwithin 1 8 0 world last _ hrun
  exact ⟨_, _, _, _, world, last, between, l, r, hparse, hwithin, rfl, hrun, hbefore, hafter, hl,
    hr, hkept (.inl rfl)⟩

/-- In `x + f()` the function assigns ten to `x`, which was one when the left operand was evaluated,
and returns one. The sum is eleven. -/
theorem assigned_operand_added :
    let report := (Session.start.run .numbered
      "x: number = 1; func f(): number \x7b x = 10; return 1; \x7d y: number = x + f();").1
    report.globals.map (fun row => (row.name, row.value.integer?)) =
      [("x", some 10), ("f", none), ("y", some 11)] := by
  decide +kernel

end LevelScript

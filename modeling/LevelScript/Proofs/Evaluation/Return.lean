import LevelScript.Proofs.Evaluation.Containment
import LevelScript.Proofs.Parser.Printing
import LevelScript.Session

set_option autoImplicit false

/-!
# Where a run returns

A run ends by a return only if it comes to a return outside the functions of its source, and then it
ends as that return does. What a run comes to is said by a relation that follows the commands of
blocks, the branches of conditionals and the rounds of loops; it does not follow calls.
-/

namespace LevelScript

/-- A node of a tree that is not inside a function of the tree. -/
inductive Node.Outside : Node → Node → Prop where
  | root (node : Node) : Outside node node
  | inside {node child tree : Node} : tree.kind ≠ .function → child ∈ tree.children →
      Outside node child → Outside node tree

structure Occasion where
  node : Node
  scope : ScopeId
  world : World

namespace Evaluation

variable {α β : Type} {eval : Evaluator} {scope : ScopeId}

theorem Contained.run_bind_returned {x : Evaluation α} {f : α → Evaluation β} {world last : World}
    {operand : Operand} (hx : x.Contained)
    (h : (x >>= f).run world = (.error (.returned operand), last)) :
    ∃ a between, x.run world = (.ok a, between) ∧
      (f a).run between = (.error (.returned operand), last) := by
  rcases run_bind_stopped h with hstopped | hrest
  · exact absurd hstopped (hx.run_ne world last operand)
  · exact hrest

theorem run_ended {x : Evaluation Unit} {world last : World} {reason : Stop} :
    (x >>= fun _ => pure (none : Option Operand)).run world = (.error reason, last) ↔
      x.run world = (.error reason, last) := by
  constructor
  · intro h
    rcases run_bind_stopped h with hx | ⟨_, _, _, hrest⟩
    · exact hx
    · cases hrest
  · intro h
    exact run_bind_error h _

theorem run_enclose (scope : ScopeId) (world : World) :
    (enclose scope).run world =
      (.ok world.forest.scopes.size, { world with forest := (world.forest.grow (some scope)).2 }) :=
  rfl

/-- The rounds of a loop that have been made, each with its body to the end. -/
inductive Repeats (eval : Evaluator) (scope : ScopeId) (condition body : Node) :
    Nat → World → World → Prop where
  | none (world : World) : Repeats eval scope condition body 0 world world
  | again {rounds : Nat} {world ready between last : World} {result : Option Operand} :
      (holds eval scope condition .conditionOfLoop).run world = (.ok true, ready) →
      (eval body scope).run ready = (.ok result, between) →
      Repeats eval scope condition body rounds between last →
      Repeats eval scope condition body (rounds + 1) world last

/-- `Starts rounds eval here there`: the evaluation of a command comes to a command directly inside
it. All that stands before the inner command has ended normally. -/
inductive Starts (rounds : Nat) (eval : Evaluator) : Occasion → Occasion → Prop where
  | command {id : Nat} {scope : ScopeId} {world between : World} {before after : List Node}
      {command : Node} :
      (commands eval scope before).run world = (.ok (), between) → command.isBlock = false →
      Starts rounds eval ⟨.block id (before ++ command :: after), scope, world⟩
        ⟨command, scope, between⟩
  | innerBlock {id : Nat} {scope inner : ScopeId} {world between opened : World}
      {before after : List Node} {command : Node} :
      (commands eval scope before).run world = (.ok (), between) → command.isBlock = true →
      (enclose scope).run between = (.ok inner, opened) →
      Starts rounds eval ⟨.block id (before ++ command :: after), scope, world⟩
        ⟨command, inner, opened⟩
  | positive {id : Nat} {scope : ScopeId} {world between : World} {condition positive : Node}
      {negative : Option Node} :
      (holds eval scope condition .conditionOfIf).run world = (.ok true, between) →
      Starts rounds eval ⟨.conditional id condition positive negative, scope, world⟩
        ⟨positive, scope, between⟩
  | negative {id : Nat} {scope : ScopeId} {world between : World}
      {condition positive negative : Node} :
      (holds eval scope condition .conditionOfIf).run world = (.ok false, between) →
      Starts rounds eval ⟨.conditional id condition positive (some negative), scope, world⟩
        ⟨negative, scope, between⟩
  | round {id k : Nat} {scope : ScopeId} {world between ready : World} {condition body : Node} :
      k < rounds → Repeats eval scope condition body k world between →
      (holds eval scope condition .conditionOfLoop).run between = (.ok true, ready) →
      Starts rounds eval ⟨.loop id condition body, scope, world⟩ ⟨body, scope, ready⟩

/-- `Executes rounds depth here left there`: the evaluation of `here` with `depth` evaluations
inside one another comes to `there`, with `left` of them left. -/
inductive Executes (rounds : Nat) : Nat → Occasion → Nat → Occasion → Prop where
  | here (depth : Nat) (occasion : Occasion) : Executes rounds depth occasion depth occasion
  | inside {depth left : Nat} {here next there : Occasion} :
      Starts rounds (evaluate rounds depth) here next → Executes rounds depth next left there →
      Executes rounds (depth + 1) here left there

theorem Starts.outside {rounds : Nat} {here there : Occasion} (h : Starts rounds eval here there) :
    here.node.kind ≠ .function ∧ there.node ∈ here.node.children := by
  cases h with
  | command | innerBlock => exact ⟨nofun, by simp [Node.children]⟩
  | positive | negative | round => exact ⟨nofun, by simp [Node.children]⟩

theorem Starts.sourced {rounds : Nat} {here there : Occasion} (h : Starts rounds eval here there)
    (hhere : Sourced true .command here.node) : Sourced true .command there.node := by
  cases h with
  | command _ _ =>
    cases hhere with
    | block hnodes => exact hnodes _ (by simp)
  | innerBlock _ _ _ =>
    cases hhere with
    | block hnodes => exact hnodes _ (by simp)
  | positive _ =>
    cases hhere with
    | conditional _ hp _ => exact hp
  | negative _ =>
    cases hhere with
    | conditional _ _ hn => exact hn _ rfl
  | round _ _ _ =>
    cases hhere with
    | loop _ hb => exact hb

theorem Executes.outside {rounds depth left : Nat} {here there : Occasion}
    (h : Executes rounds depth here left there) : there.node.Outside here.node := by
  induction h with
  | here depth occasion => exact .root _
  | inside hstarts _ ih => exact .inside hstarts.outside.1 hstarts.outside.2 ih

theorem run_commands_append_eq (before after : List Node) (world : World) :
    (commands eval scope (before ++ after)).run world =
      (commands eval scope before >>= fun _ => commands eval scope after).run world := by
  induction before generalizing world with
  | nil => rfl
  | cons node before ih =>
    -- whatever the first command is evaluated in, the others come after it
    have hrest {x : Evaluation (Option Operand)} (world : World) :
        (x >>= fun _ => commands eval scope (before ++ after)).run world =
          ((x >>= fun _ => commands eval scope before) >>= fun _ =>
            commands eval scope after).run world := by
      rw [run_bind, run_bind, run_bind]
      cases x.run world with
      | mk result later =>
        cases result with
        | error reason => rfl
        | ok result => exact (ih later).trans (run_bind _ _ _)
    rw [List.cons_append, commands, commands]
    by_cases hblock : node.isBlock = true
    · rw [if_pos hblock, if_pos hblock]
      exact hrest _
    · rw [if_neg hblock, if_neg hblock]
      exact hrest world

theorem run_commands_append {before : List Node} {world between : World} (after : List Node)
    (h : (commands eval scope before).run world = (.ok (), between)) :
    (commands eval scope (before ++ after)).run world =
      (commands eval scope after).run between := by
  rw [run_commands_append_eq, run_bind_ok h]

theorem Repeats.run_loop {condition body : Node} {k : Nat} {world between : World}
    (h : Repeats eval scope condition body k world between) (rounds : Nat) :
    (loop eval scope condition body (k + rounds)).run world =
      (loop eval scope condition body rounds).run between := by
  induction h with
  | none world => rw [Nat.zero_add]
  | @again k world ready between last result hholds hbody _ ih =>
    rw [Nat.succ_add, loop, run_bind_ok hholds, if_pos rfl, run_bind_ok hbody]
    exact ih

theorem Starts.run_stopped {rounds : Nat} {here there : Occasion} {last : World} {reason : Stop}
    (h : Starts rounds eval here there)
    (hthere : (eval there.node there.scope).run there.world = (.error reason, last)) :
    (step rounds eval here.node here.scope).run here.world = (.error reason, last) := by
  cases h with
  | command hbefore hblock =>
    rw [step, run_ended, run_commands_append _ hbefore, commands, hblock]
    exact run_bind_error hthere _
  | innerBlock hbefore hblock hopened =>
    rw [step, run_ended, run_commands_append _ hbefore, commands, hblock, if_pos rfl,
      run_bind_ok hopened]
    exact run_bind_error hthere _
  | positive hholds | negative hholds => exact (run_bind_ok hholds _).trans hthere
  | @round id k scope world between ready condition body hk hrepeats hholds =>
    have hrounds : rounds = k + (rounds - k - 1 + 1) := by omega
    rw [step, run_ended, hrounds, hrepeats.run_loop, loop, run_bind_ok hholds, if_pos rfl]
    exact run_bind_error hthere _

theorem Executes.run_stopped {rounds depth left : Nat} {here there : Occasion} {last : World}
    {reason : Stop} (h : Executes rounds depth here left there)
    (hthere : (evaluate rounds left there.node there.scope).run there.world =
      (.error reason, last)) :
    (evaluate rounds depth here.node here.scope).run here.world = (.error reason, last) := by
  induction h with
  | here depth occasion => exact hthere
  | inside hstarts _ ih => exact hstarts.run_stopped (ih hthere)

theorem exists_of_commands_stopped {nodes : List Node} {world last : World} {reason : Stop}
    (h : (commands eval scope nodes).run world = (.error reason, last)) (rounds id : Nat) :
    ∃ there, Starts rounds eval ⟨.block id nodes, scope, world⟩ there ∧
      (eval there.node there.scope).run there.world = (.error reason, last) := by
  -- the commands that have ended normally are collected in front of the rest
  suffices hrest : ∀ before start, (commands eval scope before).run start = (.ok (), world) →
      ∃ there, Starts rounds eval ⟨.block id (before ++ nodes), scope, start⟩ there ∧
        (eval there.node there.scope).run there.world = (.error reason, last) from
    hrest [] world rfl
  induction nodes generalizing world with
  | nil => cases h
  | cons node nodes ih =>
    intro before start hbefore
    -- a command that ends normally is one more before the rest
    have hnext {between : World}
        (hnode : (commands eval scope [node]).run world = (.ok (), between))
        (hstopped : (commands eval scope nodes).run between = (.error reason, last)) :
        ∃ there, Starts rounds eval ⟨.block id (before ++ node :: nodes), scope, start⟩ there ∧
          (eval there.node there.scope).run there.world = (.error reason, last) := by
      have hmore : (commands eval scope (before ++ [node])).run start = (.ok (), between) := by
        rw [run_commands_append _ hbefore, hnode]
      have hthere := ih hstopped (before ++ [node]) start hmore
      rwa [List.append_assoc] at hthere
    rw [commands] at h
    by_cases hblock : node.isBlock = true
    · rw [if_pos hblock] at h
      rcases run_bind_stopped h with hopened | ⟨inner, opened, hopened, h⟩
      · rw [run_enclose] at hopened
        cases hopened
      rcases run_bind_stopped h with hstopped | ⟨result, between, hnode, h⟩
      · exact ⟨_, .innerBlock hbefore hblock hopened, hstopped⟩
      · refine hnext ?_ h
        rw [commands, if_pos hblock, run_bind_ok hopened, run_bind_ok hnode]
        rfl
    · rw [if_neg hblock] at h
      rcases run_bind_stopped h with hstopped | ⟨result, between, hnode, h⟩
      · exact ⟨_, .command hbefore (Bool.not_eq_true _ ▸ hblock), hstopped⟩
      · refine hnext ?_ h
        rw [commands, if_neg hblock, run_bind_ok hnode]
        rfl

/-- A loop whose condition catches its returns comes to a round in which its body returns. -/
theorem exists_of_loop_returned {condition body : Node} {rounds : Nat} {world last : World}
    {operand : Operand}
    (hcondition : (holds eval scope condition .conditionOfLoop).Contained)
    (h : (loop eval scope condition body rounds).run world = (.error (.returned operand), last)) :
    ∃ k between ready, k < rounds ∧ Repeats eval scope condition body k world between ∧
      (holds eval scope condition .conditionOfLoop).run between = (.ok true, ready) ∧
      (eval body scope).run ready = (.error (.returned operand), last) := by
  induction rounds generalizing world with
  | zero => cases h
  | succ rounds ih =>
    rw [loop] at h
    obtain ⟨truth, ready, hholds, h⟩ := hcondition.run_bind_returned h
    cases truth with
    | false => cases h
    | true =>
      rw [if_pos rfl] at h
      rcases run_bind_stopped h with hbody | ⟨result, between, hbody, h⟩
      · exact ⟨0, world, ready, by omega, .none world, hholds, hbody⟩
      · obtain ⟨k, later, set, hk, hrepeats, hset, hreturned⟩ := ih h
        exact ⟨k + 1, later, set, by omega, .again hholds hbody hrepeats, hset, hreturned⟩

/-- A command that returns is a return, or it comes to a command inside it that returns. -/
theorem exists_of_step_returned {rounds : Nat} {node : Node} {world last : World}
    {operand : Operand} (he : ContainedOn eval) (hnode : Sourced true .command node)
    (h : (step rounds eval node scope).run world = (.error (.returned operand), last)) :
    (∃ id value, node = .result id value) ∨
      ∃ there, Starts rounds eval ⟨node, scope, world⟩ there ∧
        (eval there.node there.scope).run there.world = (.error (.returned operand), last) := by
  -- a command of which no return gets out does not return
  have impossible {x : Evaluation Unit} (hx : x.Contained)
      (hrun : (x >>= fun _ => pure (none : Option Operand)).run world =
        (.error (.returned operand), last)) : False :=
    hx.run_ne world last operand (run_ended.1 hrun)
  cases hnode with
  | @call _ id name arguments _ ha =>
    have hcall := step_containedOn rounds he (.call id name arguments) scope (.call (by decide) ha)
    exact absurd h (hcall.run_ne world last operand)
  | assignment hv =>
    exact (impossible (assignment_composed (acts_contained scope) (he _ scope hv)) h).elim
  | declaration _ hv =>
    refine (impossible (declaration_composed composes_contained ?_ ?_) h).elim
    · rintro _ ⟨⟩
      exact he _ scope hv
    · exact fun name type value => contained_declare scope name type value false
  | function => exact (impossible (contained_declare _ _ _ _ _) h).elim
  | skip => cases h
  | action _ ha =>
    have hparts := fun node hnode => he node scope (ha node hnode)
    exact (impossible (action_composed (acts_contained scope) hparts _) h).elim
  | result => exact .inl ⟨_, _, rfl⟩
  | block => exact .inr (exists_of_commands_stopped (run_ended.1 h) rounds _)
  | @conditional _ condition positive negative hc =>
    have hcondition := holds_composed composes_contained (he condition scope hc) .conditionOfIf
    obtain ⟨truth, between, hholds, h⟩ := hcondition.run_bind_returned h
    cases truth with
    | true => exact .inr ⟨_, .positive hholds, h⟩
    | false =>
      cases negative with
      | none => cases h
      | some negative => exact .inr ⟨_, .negative hholds, h⟩
  | @loop _ condition _ hc =>
    have hcondition := holds_composed composes_contained (he condition scope hc) .conditionOfLoop
    obtain ⟨k, between, ready, hk, hrepeats, hholds, hbody⟩ :=
      exists_of_loop_returned hcondition (run_ended.1 h)
    exact .inr ⟨_, .round hk hrepeats hholds, hbody⟩

theorem exists_of_evaluate_returned {rounds depth : Nat} {node : Node} {scope : ScopeId}
    {world last : World} {operand : Operand} (hnode : Sourced true .command node)
    (h : (evaluate rounds depth node scope).run world = (.error (.returned operand), last)) :
    ∃ left there id value, Executes rounds depth ⟨node, scope, world⟩ left there ∧
      there.node = .result id value ∧
      (evaluate rounds left there.node there.scope).run there.world =
        (.error (.returned operand), last) := by
  induction depth generalizing node scope world with
  | zero => cases h
  | succ depth ih =>
    rcases exists_of_step_returned (evaluate_containedOn rounds depth) hnode h with
      ⟨id, value, rfl⟩ | ⟨next, hstarts, hnext⟩
    · exact ⟨depth + 1, _, id, value, .here _ _, rfl, h⟩
    · obtain ⟨left, there, id, value, hexecutes, hthere⟩ := ih (hstarts.sourced hnode) hnext
      exact ⟨left, there, id, value, .inside hstarts hexecutes, hthere⟩

theorem outcome_type {name : String} {type : Option TypeName} {returned : Option Operand}
    {operand : Operand} {world last : World}
    (h : (outcome name type returned).run world = (.ok operand, last)) :
    operand.type = type.getD .void := by
  cases type with
  | none =>
    cases h
    rfl
  | some type =>
    cases returned with
    | none => cases h
    | some found =>
      simp only [outcome] at h
      split at h
      · cases h
      · next hsame =>
        cases h
        exact Decidable.not_not.1 hsame

theorem exists_of_call_ok {name : String} {arguments : List Node} {operand : Operand}
    {world last : World} (h : (call eval scope name arguments).run world = (.ok operand, last)) :
    ∃ owner row f, world.forest.resolve scope name = .ok (owner, row) ∧ row.isFunction = true ∧
      row.value = .function f ∧ operand.type = f.result.getD .void := by
  obtain ⟨found, between, hfound, h⟩ := exists_of_run_bind_ok h
  have hresolve : world.forest.resolve scope name = .ok found := by
    rw [run_resolve] at hfound
    split at hfound
    · next hrow =>
      cases hfound
      exact hrow
    · cases hfound
  dsimp only at h
  split at h
  · next f hfunction hvalue =>
    refine ⟨found.1, found.2, f, hresolve, hfunction, hvalue, ?_⟩
    split at h
    · cases h
    obtain ⟨inner, opened, _, h⟩ := exists_of_run_bind_ok h
    obtain ⟨_, bound, _, h⟩ := exists_of_run_bind_ok h
    split at h
    · cases h
    · obtain ⟨returned, ended, _, h⟩ := exists_of_run_bind_ok h
      exact outcome_type h
  · cases h
  · cases h

end Evaluation

/-- In a parsed program no return gets out of an expression; a call that ends normally gives what the
called function says that it returns; and the program ends by a return exactly when it comes to a
return outside its functions that ends so. If it has none, no session ends by one. -/
theorem returns_caught (built : Nat) (source : String) (node : Node) (state : ParseState Lexer)
    (h : Construct.program.parse built source = .ok (node, state)) (rounds depth : Nat)
    (scope : ScopeId) (world last : World) :
    (∀ inner operand, inner.Within node → inner.isExpression = true →
      (Evaluation.evaluate rounds depth inner scope).run world ≠
        (.error (.returned operand), last)) ∧
    (∀ id name arguments result, (Node.call id name arguments).Within node →
      (Evaluation.evaluate rounds depth (.call id name arguments) scope).run world =
        (.ok result, last) →
      ∃ owner row f operand, world.forest.resolve scope name = .ok (owner, row) ∧
        row.isFunction = true ∧ row.value = .function f ∧ result = some operand ∧
        operand.type = f.result.getD .void) ∧
    (∀ operand,
      (Evaluation.evaluate rounds depth node scope).run world = (.error (.returned operand), last) ↔
        ∃ left there id value, Evaluation.Executes rounds depth ⟨node, scope, world⟩ left there ∧
          there.node = .result id value ∧ there.node.Outside node ∧
          (Evaluation.evaluate rounds left there.node there.scope).run there.world =
            (.error (.returned operand), last)) ∧
    ((∀ id value, ¬ (Node.result id value).Outside node) →
      (∀ operand, (Evaluation.evaluate rounds depth node scope).run world ≠
        (.error (.returned operand), last)) ∧
      ∀ (titles : Titles) (session : Session) (datum : Datum),
        (session.evaluate titles node).1 ≠ .returned datum) := by
  obtain ⟨_, nodes, m, hreads, rfl, _⟩ := program_reads h
  have hnode : Sourced true .command (.block (m + 1) nodes) :=
    .block (hreads.sourced (.inl rfl))
  -- a return that gets out of the program was come to, and lies outside its functions
  have hreturned {rounds depth : Nat} {scope : ScopeId} {world last : World} {operand : Operand}
      (hrun : (Evaluation.evaluate rounds depth (.block (m + 1) nodes) scope).run world =
        (.error (.returned operand), last)) :
      ∃ left there id value,
        Evaluation.Executes rounds depth ⟨.block (m + 1) nodes, scope, world⟩ left there ∧
        there.node = .result id value ∧ there.node.Outside (.block (m + 1) nodes) ∧
        (Evaluation.evaluate rounds left there.node there.scope).run there.world =
          (.error (.returned operand), last) := by
    obtain ⟨left, there, id, value, hexecutes, hresult, hthere⟩ :=
      Evaluation.exists_of_evaluate_returned hnode hrun
    exact ⟨left, there, id, value, hexecutes, hresult, hexecutes.outside, hthere⟩
  refine ⟨?_, ?_, ?_, ?_⟩
  · intro inner operand hwithin hexpression
    obtain ⟨role, hinner⟩ := hnode.within hwithin
    have hcontained := Evaluation.evaluate_containedOn rounds depth inner scope
      (hinner.expression hexpression)
    exact hcontained.run_ne world last operand
  · intro id name arguments result _ hrun
    cases depth with
    | zero => cases hrun
    | succ depth =>
      obtain ⟨operand, between, hcall, hsome⟩ := Evaluation.exists_of_run_bind_ok hrun
      obtain ⟨owner, row, f, hfound⟩ := Evaluation.exists_of_call_ok hcall
      cases hsome
      exact ⟨owner, row, f, operand, hfound.1, hfound.2.1, hfound.2.2.1, rfl, hfound.2.2.2⟩
  · intro operand
    constructor
    · exact hreturned
    · rintro ⟨left, there, id, value, hexecutes, _, _, hthere⟩
      exact hexecutes.run_stopped hthere
  · intro hnone
    have hnever {rounds depth : Nat} {scope : ScopeId} {world last : World} (operand : Operand) :
        (Evaluation.evaluate rounds depth (.block (m + 1) nodes) scope).run world ≠
          (.error (.returned operand), last) := by
      intro hrun
      obtain ⟨left, there, id, value, _, hresult, houtside, _⟩ := hreturned hrun
      rw [hresult] at houtside
      exact hnone id value houtside
    refine ⟨hnever, ?_⟩
    intro titles session datum hended
    rw [Session.evaluate] at hended
    split at hended
    next result ended hrun =>
    cases result with
    | ok result => cases hended
    | error reason =>
      cases reason with
      | returned operand => exact hnever operand hrun
      | fault | tooDeep | unfinished => cases hended

/-- `func f():number{return 1;}return f();` returns what the call gives: the return in the
function is caught, the one after it is not. -/
theorem returned_call_caught :
    ∃ node state last,
      Construct.program.parse 0 "func f():number{return 1;}return f();" = .ok (node, state) ∧
      (Evaluation.evaluate 1 9 node Session.start.root).run
        ⟨Session.start.forest, #[], .numbered⟩ =
          (.error (.returned (.temporary .number (.number 1))), last) ∧
      ∃ left there id value,
        Evaluation.Executes 1 9
          ⟨node, Session.start.root, ⟨Session.start.forest, #[], .numbered⟩⟩ left there ∧
        there.node = .result id value ∧ there.node.Outside node := by
  have hstream : (TokenStream.ofSource "func f():number{return 1;}return f();").fault? = none ∧
      (TokenStream.ofSource "func f():number{return 1;}return f();").words =
        [.keyword .func, .identifier "f", .symbol .leftParen, .symbol .rightParen, .symbol .colon,
          .keyword .number, .symbol .leftBrace, .keyword .returnWord, .number 1,
          .symbol .semicolon, .symbol .rightBrace, .keyword .returnWord, .identifier "f",
          .symbol .leftParen, .symbol .rightParen, .symbol .semicolon] := by
    decide +kernel
  have hbody : Reads .block 0 [.symbol .leftBrace, .keyword .returnWord, .number 1,
      .symbol .semicolon, .symbol .rightBrace] [.block 3 [.result 2 (some (.number 1 1))]] 3 :=
    .block (.commandsNext (by decide) (.result (Reads.loosen (k := .factor) .number (by decide)))
      .commandsEnd)
  have hfunction : Reads .functionDeclaration 0 [.keyword .func, .identifier "f",
      .symbol .leftParen, .symbol .rightParen, .symbol .colon, .keyword .number,
      .symbol .leftBrace, .keyword .returnWord, .number 1, .symbol .semicolon, .symbol .rightBrace]
      [.function 4 "f" (some .number) [.identifier 5 "f", .block 3 [.result 2 (some (.number 1 1))]]]
      5 :=
    .functionDeclaration .noItems (.some rfl) hbody
  have hreturn : Reads .command 5 [.keyword .returnWord, .identifier "f", .symbol .leftParen,
      .symbol .rightParen, .symbol .semicolon] [.result 7 (some (.call 6 "f" []))] 7 :=
    .result (Reads.loosen (k := .factor) (.call .noItems) (by decide))
  have hreads := Reads.programNext (by decide) hfunction
    (.programNext (by decide) hreturn .programEnd)
  obtain ⟨d, hparse⟩ := program_parses hstream.1 (by rw [hstream.2]; exact hreads)
  obtain ⟨left, there, id, value, hexecutes, hresult, houtside, _⟩ :=
    ((returns_caught 0 _ _ _ hparse 1 9 Session.start.root
      ⟨Session.start.forest, #[], .numbered⟩ _).2.2.1 (.temporary .number (.number 1))).1 rfl
  exact ⟨_, _, _, hparse, rfl, left, there, id, value, hexecutes, hresult, houtside⟩

end LevelScript

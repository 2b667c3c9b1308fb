import LevelScript.Proofs.Evaluation.Containment
import LevelScript.Proofs.Evaluation.Purity
import LevelScript.Proofs.Evaluation.Relation
import LevelScript.Proofs.Evaluation.Typing
import LevelScript.Proofs.Parser.Printing
import LevelScript.Session

set_option autoImplicit false

namespace LevelScript

namespace Forest

/-- What a name means in a scope, if it is declared there: the type and the value of its row. -/
def meaning? (forest : Forest) (scope : ScopeId) (name : String) : Option Datum :=
  match forest.resolve scope name with
  | .ok (_, row) => some ⟨row.type, row.value⟩
  | .error _ => none

theorem resolve_of_meaning?_none {forest : Forest} {scope : ScopeId} {name : String}
    (h : forest.meaning? scope name = none) :
    forest.resolve scope name = .error (.undeclared name) := by
  rw [meaning?, resolve] at h
  rw [resolve]
  cases hfound : forest.nearest? name (forest.chain scope) with
  | none => rfl
  | some found =>
    rw [hfound] at h
    cases h

theorem resolve_of_meaning?_some {forest : Forest} {scope : ScopeId} {name : String} {datum : Datum}
    (h : forest.meaning? scope name = some datum) :
    ∃ owner row, forest.resolve scope name = .ok (owner, row) ∧
      (Operand.variable owner row).datum forest = datum := by
  rw [meaning?] at h
  split at h
  · next owner row hresolve =>
    cases h
    refine ⟨owner, row, hresolve, ?_⟩
    have hrow := resolve_row? hresolve
    rw [← row?_name hrow] at hrow
    rw [Operand.datum, Operand.value, currentValue, hrow]
    rfl
  · cases h

end Forest

def Node.SameNames (world other : World) (here there : ScopeId) (node : Node) : Prop :=
  ∀ id name, (Node.identifier id name).Within node →
    world.forest.meaning? here name = other.forest.meaning? there name

theorem Node.SameNames.child {world other : World} {here there : ScopeId} {node child : Node}
    (h : node.SameNames world other here there) (hchild : child ∈ node.children) :
    child.SameNames world other here there :=
  fun id name hname => h id name (.inside hchild hname)

/-- Worlds that stay as they are, and operands of one type and value, each in its own world. -/
def Likeness.still (world other : World) : Likeness where
  number n := n
  injective _ _ h := h
  worlds here there := here = world ∧ there = other
  operands left right := right.datum other.forest = left.datum world.forest
  type h := congrArg Datum.type h
  value := by
    rintro left right _ _ h ⟨rfl, rfl⟩
    rw [Value.renumber_same]
    exact congrArg Datum.value h
  temporary _ _ := by rw [Value.renumber_same]; rfl

namespace Evaluation

open Likeness

variable {functions : Bool} {eval : Evaluator} {world other : World} {here there : ScopeId}

theorem relates_name {id : Nat} {name : String} (rounds : Nat)
    (h : world.forest.meaning? here name = other.forest.meaning? there name) :
    (still world other).Relates (still world other).results
      (step rounds eval (.identifier id name) here)
      (step rounds eval (.identifier id name) there) := by
  rintro world other ⟨rfl, rfl⟩
  have hhere := run_resolve here name world
  have hthere := run_resolve there name other
  simp only [step]
  cases hmeaning : world.forest.meaning? here name with
  | none =>
    rw [Forest.resolve_of_meaning?_none hmeaning] at hhere
    rw [Forest.resolve_of_meaning?_none (h.symm.trans hmeaning)] at hthere
    rw [run_bind_error hhere, run_bind_error hthere]
    exact .stopped ⟨rfl, rfl⟩
  | some datum =>
    obtain ⟨owner, row, hrow, hdatum⟩ := Forest.resolve_of_meaning?_some hmeaning
    obtain ⟨owner', row', hrow', hdatum'⟩ :=
      Forest.resolve_of_meaning?_some (h.symm.trans hmeaning)
    rw [hrow] at hhere
    rw [hrow'] at hthere
    rw [run_bind_ok hhere, run_bind_ok hthere]
    exact .done (.some (hdatum'.trans hdatum.symm)) ⟨rfl, rfl⟩

/-- An evaluator that goes the same way in two scopes on the expressions of sources that call no
function and whose names mean the same there. -/
def AlikeOn (functions : Bool) (world other : World) (here there : ScopeId) (eval : Evaluator) :
    Prop :=
  ∀ node, Sourced functions .expression node → node.CallFree →
    node.SameNames world other here there →
    (still world other).Relates (still world other).results (eval node here) (eval node there)

-- The order in which the parts are evaluated, read and checked is the same in both scopes, and so
-- is the first reason to stop.
theorem step_alikeOn (rounds : Nat) (he : AlikeOn functions world other here there eval) :
    AlikeOn functions world other here there (step rounds eval) := by
  intro node hnode hfree hnames
  have part {child : Node} (hchild : child ∈ node.children)
      (hsourced : Sourced functions .expression child) :
      (still world other).Relates (still world other).results (eval child here)
        (eval child there) :=
    he child hsourced (hfree.child hchild) (hnames.child hchild)
  cases hnode with
  | number | boolean | text => exact relates_pure (.some rfl)
  | @identifier id name => exact relates_name rounds (hnames id name (.root _))
  | @binary id op left right _ hl hr =>
    refine (part (by simp [Node.children]) hl).bind fun left left' hleft => ?_
    refine (part (by simp [Node.children]) hr).bind fun right right' hright => ?_
    exact relates_handed (relates_binary op hleft hright)
  | @unary id op operand _ ho =>
    refine (part (by simp [Node.children]) ho).bind fun operand operand' hoperand => ?_
    exact relates_handed (relates_unary op hoperand)
  | array hnodes =>
    refine (relates_elements (List.forall₂_same.2 fun node hnode =>
      part hnode (hnodes node hnode))).next fun values => ?_
    rw [← Value.renumberItems_eq_map]
    exact relates_pure (.some ((still world other).temporary .array (.array values)))
  | access hi =>
    apply relates_handed
    apply relates_access
    · exact part (by simp [Node.children]) .identifier
    · exact part (by simp [Node.children]) hi
  | length =>
    apply relates_handed
    apply relates_length
    exact part (by simp [Node.children]) .identifier
  | call => exact absurd (.root _) (hfree _ _ _)

theorem evaluate_alikeOn (rounds depth : Nat) :
    AlikeOn functions world other here there (evaluate rounds depth) := by
  induction depth with
  | zero => exact fun _ _ _ _ => relates_stop .tooDeep
  | succ depth ih => exact step_alikeOn rounds ih

theorem ending_of_relates {x y : Evaluation (Option Operand)}
    (h : (still world other).Relates (still world other).results x y) (hx : x.Contained) :
    Ending.of world.forest (x.run world).1 = Ending.of other.forest (y.run other).1 := by
  have hended := h world other ⟨rfl, rfl⟩
  have hreturn := hx.run_ne world
  generalize x.run world = left, y.run other = right at hended hreturn
  cases hended with
  | done hsame _ =>
    cases hsame with
    | none => rfl
    | some hdatum => exact congrArg (Ending.done ∘ some) hdatum.symm
  | @stopped reason last _ _ =>
    cases reason with
    | returned operand => exact absurd rfl (hreturn last operand)
    | fault | tooDeep | unfinished => rfl

end Evaluation

theorem sourced_of_parse {construct : Construct} {built : Nat} {source : String} {tree : Node}
    {state : ParseState Lexer} (hconstruct : construct ∈ [.program, .expression])
    (h : construct.parse built source = .ok (tree, state)) : ∃ role, Sourced true role tree := by
  simp only [List.mem_cons, List.not_mem_nil, or_false] at hconstruct
  rcases hconstruct with rfl | rfl
  · obtain ⟨_, nodes, m, hreads, rfl, _⟩ := program_reads h
    exact ⟨.command, .block (hreads.sourced (.inl rfl))⟩
  · obtain ⟨c, _, hparsed⟩ := (Construct.parse_ok ..).1 ⟨state, h, rfl⟩
    obtain ⟨tokens, _, hreads⟩ :=
      Parser.expression_sound _ c state.tape.cursor built state.built tree hparsed
    exact ⟨.expression, List.forall_mem_singleton.1 (hreads.sourced (.inl rfl))⟩

/-- An expression of a source that calls no function changes no scope and makes no event happen,
however its evaluation ends. In two scopes in which each of its names is undeclared or means a row
of one type and value, it gives one type and value or stops with one fault. -/
theorem expression_determined (construct : Construct) (built : Nat) (source : String)
    (tree node : Node) (state : ParseState Lexer) (hconstruct : construct ∈ [.program, .expression])
    (h : construct.parse built source = .ok (tree, state)) (hnode : node.Within tree)
    (hexpression : node.isExpression = true) (hfree : node.CallFree) (rounds depth : Nat)
    (world other : World) (here there : ScopeId)
    (hnames : ∀ id name, (Node.identifier id name).Within node →
      world.forest.meaning? here name = other.forest.meaning? there name) :
    let first := (Evaluation.evaluate rounds depth node here).run world
    let second := (Evaluation.evaluate rounds depth node there).run other
    first.2 = world ∧ second.2 = other ∧
      Ending.of first.2.forest first.1 = Ending.of second.2.forest second.1 := by
  intro first second
  obtain ⟨_, htree⟩ := sourced_of_parse hconstruct h
  obtain ⟨_, hsourced⟩ := htree.within hnode
  have hexpression := hsourced.expression hexpression
  have hstill := Evaluation.evaluate_stillOn rounds depth node here hexpression hfree
  have hstill' := Evaluation.evaluate_stillOn rounds depth node there hexpression hfree
  have halike := Evaluation.evaluate_alikeOn rounds depth node hexpression hfree hnames
  have hending := Evaluation.ending_of_relates halike
    (Evaluation.evaluate_containedOn rounds depth node here hexpression)
  have hfirst : first.2 = world := hstill.run world
  have hsecond : second.2 = other := hstill'.run other
  rw [hfirst, hsecond]
  exact ⟨rfl, rfl, hending⟩

/-- In `say(a[n]);` the element is the same from a scope that has both names and from one that has
an `n` of its own, while the `a` and a text `n` are in the scope around it. -/
theorem shadowed_element_determined :
    ∃ tree state node world other, Construct.program.parse 0 "say(a[n]);" = .ok (tree, state) ∧
      node.Within tree ∧ node.CallFree ∧
      (∀ id name, (Node.identifier id name).Within node →
        world.forest.meaning? 0 name = other.forest.meaning? 1 name) ∧
      (other.forest.meaning? 0 "n").map Datum.type = some .text ∧
      Ending.of world.forest ((Evaluation.evaluate 1 9 node 0).run world).1 =
        .done (some ⟨.number, .number 7⟩) ∧
      Ending.of other.forest ((Evaluation.evaluate 1 9 node 1).run other).1 =
        .done (some ⟨.number, .number 7⟩) := by
  have hwritten : Written [.keyword .say, .symbol .leftParen, .identifier "a",
      .symbol .leftBracket, .identifier "n", .symbol .rightBracket, .symbol .rightParen,
      .symbol .semicolon] "say(a[n]);".toList :=
    .token (.token (.token (.token (.token (.token (.token (.token .nil)))))))
  obtain ⟨hfault, hwords⟩ := hwritten.words (by decide +kernel) (by decide +kernel)
  rw [String.ofList_toList] at hfault hwords
  have hindex : Reads .expression 0 [.identifier "n"] [.identifier 1 "n"] 1 :=
    Reads.loosen (k := .factor) .name (by decide)
  have helement : Reads .expression 0 [.identifier "a", .symbol .leftBracket, .identifier "n",
      .symbol .rightBracket] [.access 3 (.identifier 2 "a") (.identifier 1 "n")] 3 :=
    Reads.loosen (k := .factor) (.access hindex) (by decide)
  have hsaid : Keyword.say ∈ Keyword.actions := by decide
  have hreads := Reads.programNext (by decide) (.action hsaid (.someItems (.itemLast helement)))
    .programEnd
  obtain ⟨d, hparse⟩ := program_parses hfault (by rw [hwords]; exact hreads)
  have hwithin : (Node.access 3 (.identifier 2 "a") (.identifier 1 "n")).Within
      (.block 5 [.action 4 .say [.access 3 (.identifier 2 "a") (.identifier 1 "n")]]) :=
    .inside List.mem_cons_self (.inside List.mem_cons_self (.root _))
  have hinner {inner : Node}
      (h : inner.Within (.access 3 (.identifier 2 "a") (.identifier 1 "n"))) :
      inner = .access 3 (.identifier 2 "a") (.identifier 1 "n") ∨ inner = .identifier 2 "a" ∨
        inner = .identifier 1 "n" := by
    cases h with
    | root => exact .inl rfl
    | inside hchild h =>
      simp only [Node.children, List.mem_cons, List.not_mem_nil, or_false] at hchild
      rcases hchild with rfl | rfl <;> cases h with
      | root => simp
      | inside hchild _ => cases hchild
  have hfree : (Node.access 3 (.identifier 2 "a") (.identifier 1 "n")).CallFree := by
    intro id name arguments hcall
    rcases hinner hcall with h | h | h <;> cases h
  have hworlds : ∃ world other : World,
      (∀ id name, (Node.identifier id name).Within
          (.access 3 (.identifier 2 "a") (.identifier 1 "n")) →
        world.forest.meaning? 0 name = other.forest.meaning? 1 name) ∧
      (other.forest.meaning? 0 "n").map Datum.type = some .text ∧
      Ending.of world.forest ((Evaluation.evaluate 1 9
        (.access 3 (.identifier 2 "a") (.identifier 1 "n")) 0).run world).1 =
          .done (some ⟨.number, .number 7⟩) := by
    refine ⟨⟨⟨#[⟨[], [⟨"a", .array, .array [.number 5, .number 7], 4, false⟩,
      ⟨"n", .number, .number 1, 8, false⟩], 12⟩]⟩, #[], .numbered⟩, ⟨⟨#[⟨[], [⟨"a", .array,
      .array [.number 5, .number 7], 4, false⟩, ⟨"n", .text, .text "far", 8, false⟩], 12⟩,
      ⟨[0], [⟨"n", .number, .number 1, 4, false⟩], 8⟩]⟩, #[], .numbered⟩, ?_, rfl, rfl⟩
    intro id name hname
    rcases hinner hname with h | h | h <;> cases h <;> rfl
  obtain ⟨world, other, hnames, htext, hfirst⟩ := hworlds
  obtain ⟨hkept, hkept', hsame⟩ := expression_determined .program 0 _ _ _ _ (by decide) hparse
    hwithin rfl hfree 1 9 world other 0 1 hnames
  rw [hkept, hkept', hfirst] at hsame
  exact ⟨_, _, _, world, other, hparse, hwithin, hfree, hnames, htext, hfirst, hsame.symm⟩

end LevelScript

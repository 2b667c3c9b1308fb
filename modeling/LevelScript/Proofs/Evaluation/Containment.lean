import LevelScript.Proofs.Evaluation.Composition
import LevelScript.Proofs.Evaluation.Logic

set_option autoImplicit false

namespace LevelScript.Evaluation

variable {α β : Type}

/-- No return gets out of the evaluation, whatever the worlds that it comes to. -/
def Contained : Evaluation α → Prop
  | .done _ => True
  | .stopped reason => ∀ operand, reason ≠ .returned operand
  | .act _ next => ∀ world, (next world).Contained

theorem Contained.bind {x : Evaluation α} {f : α → Evaluation β} (hx : x.Contained)
    (hf : ∀ a, (f a).Contained) : (x >>= f).Contained := by
  change (x.bind f).Contained
  induction x with
  | done result => exact hf result
  | stopped reason => exact hx
  | act update next ih => exact fun world => ih world (hx world)

theorem Contained.recover {handle : Stop → Evaluation α} (x : Evaluation α)
    (hhandle : ∀ reason, (handle reason).Contained) : (x.recover handle).Contained := by
  induction x with
  | done result => trivial
  | stopped reason => exact hhandle reason
  | act update next ih => exact fun world => ih world

theorem Contained.run_ne {x : Evaluation α} (hx : x.Contained) (world last : World)
    (operand : Operand) : x.run world ≠ (.error (.returned operand), last) := by
  induction x generalizing world with
  | done result => nofun
  | stopped reason =>
    intro hrun
    cases hrun
    exact hx operand rfl
  | act update next ih => exact ih (update world) (hx _) (update world)

theorem Looks.contained {x : Evaluation α} (h : x.Looks) : x.Contained := by
  induction x with
  | done result => trivial
  | stopped reason =>
    obtain ⟨cause, rfl⟩ := h
    exact nofun
  | act update next ih => exact fun world => ih world (h.2 world)

theorem contained_change (update : World → World) : (change update).Contained :=
  fun _ => trivial

theorem composes_contained : Composes Contained :=
  ⟨Looks.contained, Contained.bind⟩

theorem contained_declare (scope : ScopeId) (name : String) (type : TypeName) (value : Value)
    (isFunction : Bool) : (declare scope name type value isFunction).Contained := by
  refine looks_forest.contained.bind fun _ => ?_
  exact (looks_ofExcept _ _).contained.bind fun _ => contained_change _

theorem contained_enclose (parent : ScopeId) : (enclose parent).Contained := by
  refine looks_forest.contained.bind fun _ => ?_
  exact (contained_change _).bind fun _ => trivial

theorem acts_contained (scope : ScopeId) : Acts scope Contained where
  toComposes := composes_contained
  emit _ := contained_change _
  assign name type value := by
    refine looks_forest.contained.bind fun _ => ?_
    exact (looks_ofExcept _ _).contained.bind fun _ => contained_change _
  restock {_ f} hf := by
    refine looks_forest.contained.bind fun forest => ?_
    have hrest := hf forest
    generalize f forest = x at hrest
    cases hrest with
    | same hx => exact hx
    | other _ hx => exact (contained_change _).bind fun _ => hx

theorem contained_returnedBy (body : Evaluation Unit) : (returnedBy body).Contained := by
  apply Contained.recover
  intro reason
  cases reason with
  | returned operand => trivial
  | fault cause => exact nofun
  | tooDeep => exact nofun
  | unfinished => exact nofun

/-- The body of the function can be any node: what it returns is caught. -/
theorem contained_call {eval : Evaluator} {scope : ScopeId} {name : String} {arguments : List Node}
    (ha : ∀ argument ∈ arguments, (eval argument scope).Contained) :
    (call eval scope name arguments).Contained := by
  refine (looks_resolve scope name).contained.bind fun found => ?_
  dsimp only
  split
  · refine composes_contained.unless ((contained_enclose scope).bind fun inner => ?_)
    have hdeclare (name : String) (type : TypeName) (value : Value) :
        (declare inner name type value false).Contained :=
      contained_declare inner name type value false
    refine (bindParameters_composed composes_contained ha hdeclare).bind fun _ => ?_
    split
    · exact (looks_raise _).contained
    · exact (contained_returnedBy _).bind fun _ => (looks_outcome _ _ _).contained
  · exact (looks_raise _).contained
  · exact (looks_raise _).contained

def ContainedOn (eval : Evaluator) : Prop :=
  ∀ node scope, Sourced true .expression node → (eval node scope).Contained

theorem step_containedOn {eval : Evaluator} (rounds : Nat) (he : ContainedOn eval) :
    ContainedOn (step rounds eval) := by
  intro node scope hnode
  have hchildren (child : Node) (hchild : child ∈ node.children) :
      (eval child scope).Contained :=
    he child scope (hnode.operands child hchild)
  refine expression_composed composes_contained rounds hnode.isExpression hchildren ?_
  rintro id name arguments rfl
  exact contained_call hchildren

theorem evaluate_containedOn (rounds depth : Nat) : ContainedOn (evaluate rounds depth) := by
  induction depth with
  | zero => exact fun _ _ _ => nofun
  | succ depth ih => exact step_containedOn rounds ih

end LevelScript.Evaluation

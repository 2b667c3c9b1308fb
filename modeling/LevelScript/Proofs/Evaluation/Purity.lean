import LevelScript.Proofs.Evaluation.Keeping

set_option autoImplicit false

namespace LevelScript

def Node.CallFree (node : Node) : Prop :=
  ∀ id name arguments, ¬ (Node.call id name arguments).Within node

theorem Node.CallFree.child {node child : Node} (h : node.CallFree)
    (hchild : child ∈ node.children) : child.CallFree :=
  fun id name arguments hcall => h id name arguments (.inside hchild hcall)

theorem Node.CallFree.of_children {node : Node}
    (hnode : ∀ id name arguments, node ≠ .call id name arguments)
    (h : ∀ child ∈ node.children, child.CallFree) : node.CallFree := by
  intro id name arguments hcall
  cases hcall with
  | root => exact hnode id name arguments rfl
  | inside hchild hcall => exact h _ hchild id name arguments hcall

namespace Evaluation

variable {functions : Bool} {eval : Evaluator}

def StillOn (functions : Bool) (eval : Evaluator) : Prop :=
  ∀ node scope, Sourced functions .expression node → node.CallFree → Still (eval node scope)

theorem step_stillOn (rounds : Nat) (he : StillOn functions eval) :
    StillOn functions (step rounds eval) := by
  intro node scope hnode hfree
  have hchildren (child : Node) (hchild : child ∈ node.children) : Still (eval child scope) :=
    he child scope (hnode.operands child hchild) (hfree.child hchild)
  refine expression_composed composes_still rounds hnode.isExpression hchildren ?_
  rintro id name arguments rfl
  exact absurd (.root _) (hfree id name arguments)

theorem evaluate_stillOn (rounds depth : Nat) : StillOn functions (evaluate rounds depth) := by
  induction depth with
  | zero => exact fun _ _ _ _ => still_stop _
  | succ depth ih => exact step_stillOn rounds ih

end Evaluation

end LevelScript

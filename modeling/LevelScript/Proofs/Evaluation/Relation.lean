import Mathlib.Data.List.Forall2
import LevelScript.Proofs.Evaluation.Logic
import LevelScript.Proofs.Evaluation.Renumbering

set_option autoImplicit false

/-!
# Two evaluations that go the same way

Two runs are compared step by step, in worlds that correspond. What they hand over are operands, and
all that an expression finds out about those is a type and a value. So a correspondence of worlds
and operands is carried through every form of expression as soon as operands that correspond have
one type and, but for the numbers in functions, one value.
-/

namespace LevelScript

/-- A correspondence of worlds and operands that expressions cannot tell apart. -/
structure Likeness where
  number : Nat → Nat
  injective : Function.Injective number
  worlds : World → World → Prop
  operands : Operand → Operand → Prop
  type {left right : Operand} : operands left right → right.type = left.type
  value {left right : Operand} {world other : World} : operands left right → worlds world other →
    right.value other.forest = (left.value world.forest).renumber number
  temporary (type : TypeName) (value : Value) :
    operands (.temporary type value) (.temporary type (value.renumber number))

namespace Likeness

variable {α β γ δ : Type} {like : Likeness}

/-- Two runs end alike: with results in `same`, or for one reason. -/
inductive Ended (like : Likeness) (same : α → β → Prop) :
    Except Stop α × World → Except Stop β × World → Prop where
  | done {a : α} {b : β} {world other : World} (hsame : same a b)
      (hworlds : like.worlds world other) : Ended like same (.ok a, world) (.ok b, other)
  | stopped {reason : Stop} {world other : World} (hworlds : like.worlds world other) :
      Ended like same (.error reason, world) (.error (reason.renumber like.number), other)

theorem Ended.worlds {same : α → β → Prop} {left : Except Stop α × World}
    {right : Except Stop β × World} (h : like.Ended same left right) :
    like.worlds left.2 right.2 := by
  cases h <;> assumption

/-- In worlds that correspond, two evaluations end alike. -/
def Relates (like : Likeness) (same : α → β → Prop) (x : Evaluation α) (y : Evaluation β) : Prop :=
  ∀ world other, like.worlds world other → like.Ended same (x.run world) (y.run other)

abbrev results (like : Likeness) : Option Operand → Option Operand → Prop :=
  Option.Rel like.operands

open Evaluation

theorem Relates.mono {same same' : α → β → Prop} {x : Evaluation α} {y : Evaluation β}
    (h : like.Relates same x y) (hsame : ∀ a b, same a b → same' a b) :
    like.Relates same' x y := by
  intro world other hworlds
  have h := h world other hworlds
  generalize x.run world = left, y.run other = right at h
  cases h with
  | done hab hworlds => exact .done (hsame _ _ hab) hworlds
  | stopped hworlds => exact .stopped hworlds

theorem relates_pure {same : α → β → Prop} {a : α} {b : β} (h : same a b) :
    like.Relates same (pure a) (pure b) :=
  fun _ _ hworlds => .done h hworlds

theorem relates_stop {same : α → β → Prop} (reason : Stop) :
    like.Relates same (stop reason) (stop (reason.renumber like.number)) :=
  fun _ _ hworlds => .stopped hworlds

theorem relates_raise {same : α → β → Prop} (cause : Fault) :
    like.Relates same (raise cause) (raise cause) :=
  relates_stop (.fault cause)

theorem Relates.bind {same : α → β → Prop} {same' : γ → δ → Prop} {x : Evaluation α}
    {y : Evaluation β} {f : α → Evaluation γ} {g : β → Evaluation δ} (h : like.Relates same x y)
    (hrest : ∀ a b, same a b → like.Relates same' (f a) (g b)) :
    like.Relates same' (x >>= f) (y >>= g) := by
  intro world other hworlds
  have h := h world other hworlds
  rw [run_bind, run_bind]
  generalize x.run world = left, y.run other = right at h
  cases h with
  | done hsame hworlds => exact hrest _ _ hsame _ _ hworlds
  | stopped hworlds => exact .stopped hworlds

theorem Relates.next {f : α → β} {same : γ → δ → Prop} {x : Evaluation α} {y : Evaluation β}
    {k : α → Evaluation γ} {l : β → Evaluation δ} (h : like.Relates (fun a b => b = f a) x y)
    (hrest : ∀ a, like.Relates same (k a) (l (f a))) :
    like.Relates same (x >>= k) (y >>= l) := by
  refine h.bind ?_
  rintro a _ rfl
  exact hrest a

theorem Relates.recover {same : α → β → Prop} {x : Evaluation α} {y : Evaluation β}
    {handle : Stop → Evaluation α} {handle' : Stop → Evaluation β} (h : like.Relates same x y)
    (hhandle : ∀ reason,
      like.Relates same (handle reason) (handle' (reason.renumber like.number))) :
    like.Relates same (x.recover handle) (y.recover handle') := by
  intro world other hworlds
  have h := h world other hworlds
  rw [run_recover, run_recover]
  generalize x.run world = left, y.run other = right at h
  cases h with
  | done hsame hworlds => exact .done hsame hworlds
  | stopped hworlds => exact hhandle _ _ _ hworlds

theorem relates_unless {same : α → β → Prop} {p q : Prop} [Decidable p] [Decidable q]
    {cause : Fault} {f : γ → Evaluation α} {g : γ → Evaluation β} {x : Evaluation α}
    {y : Evaluation β} (hiff : p ↔ q) (h : like.Relates same x y) :
    like.Relates same (if p then raise cause >>= f else x)
      (if q then raise cause >>= g else y) := by
  by_cases hp : p
  · rw [if_pos hp, if_pos (hiff.1 hp)]
    exact relates_raise cause
  · rw [if_neg hp, if_neg (mt hiff.2 hp)]
    exact h

theorem relates_ofExcept {ε : Type} {f : α → β} (fault : ε → Fault) {x : Except ε α}
    {y : Except ε β} (h : y = x.map f) :
    like.Relates (fun a b => b = f a) (ofExcept fault x) (ofExcept fault y) := by
  subst h
  cases x with
  | error cause => exact relates_raise _
  | ok a => exact relates_pure rfl

theorem relates_same {ε : Type} (fault : ε → Fault) {x y : Except ε α} (h : y = x) :
    like.Relates (fun a b => b = id a) (ofExcept fault x) (ofExcept fault y) := by
  subst h
  refine relates_ofExcept fault ?_
  cases y <;> rfl

theorem relates_read {left right : Operand} (h : like.operands left right) :
    like.Relates (fun a b => b = Value.renumber like.number a) (read left) (read right) :=
  fun _ _ hworlds => .done (like.value h hworlds) hworlds

theorem relates_typeOf {left right : Option Operand} (h : like.results left right) :
    like.Relates (fun a b => b = id a) (typeOf left) (typeOf right) := by
  cases h with
  | none => exact relates_raise _
  | some h => exact relates_pure (like.type h)

theorem relates_valueOf {left right : Option Operand} (h : like.results left right) :
    like.Relates (fun a b => b = Value.renumber like.number a) (valueOf left) (valueOf right) := by
  cases h with
  | none => exact relates_raise _
  | some h => exact relates_read h

theorem relates_handed {x y : Evaluation Operand} (h : like.Relates like.operands x y) :
    like.Relates like.results (x >>= fun operand => pure (some operand))
      (y >>= fun operand => pure (some operand)) :=
  h.bind fun _ _ hoperands => relates_pure (.some hoperands)

theorem relates_order (op : Order) (left right : Value) :
    like.Relates (fun a b => b = id a) (ofExcept .value (Value.order op left right))
      (ofExcept .value
        (Value.order op (left.renumber like.number) (right.renumber like.number))) :=
  relates_same _ (Value.order_renumber like.injective op left right)

theorem relates_binary (op : BinaryOp) {left left' right right' : Option Operand}
    (hleft : like.results left left') (hright : like.results right right') :
    like.Relates like.operands (binary op left right) (binary op left' right') := by
  cases hleft with
  | none => exact relates_raise _
  | @some left left' hleft =>
    cases hright with
    | none => exact relates_raise _
    | @some right right' hright =>
      refine (relates_read hleft).next fun first => (relates_read hright).next fun second => ?_
      rw [like.type hleft, like.type hright]
      refine (relates_ofExcept _ (BinaryOp.apply_renumber like.injective ..)).next fun found => ?_
      exact relates_pure (like.temporary _ _)

theorem relates_unary (op : UnaryOp) {operand operand' : Option Operand}
    (h : like.results operand operand') :
    like.Relates like.operands (unary op operand) (unary op operand') := by
  cases h with
  | none => exact relates_raise _
  | @some operand operand' h =>
    have hfails (type : TypeName) : operand.type ≠ type ↔ operand'.type ≠ type := by
      rw [like.type h]
    cases op with
    | minus =>
      refine relates_unless (hfails .number) ((relates_read h).next fun value => ?_)
      refine (relates_ofExcept _ (Value.negated_renumber like.number value)).next fun negated => ?_
      exact relates_pure (like.temporary _ _)
    | not =>
      refine relates_unless (hfails .boolean) ((relates_read h).next fun value => ?_)
      rw [Value.truth_renumber]
      exact relates_pure (like.temporary .boolean (.boolean (!value.truth)))
    | plus | other => exact relates_pure h

theorem relates_element (array index : Value) :
    like.Relates like.operands (element array index)
      (element (array.renumber like.number) (index.renumber like.number)) := by
  refine (relates_order .less index (.number 0)).next fun below => relates_unless Iff.rfl ?_
  refine (relates_same _ (Value.length_renumber like.number array)).next fun length => ?_
  refine (relates_order .atLeast index (.number length)).next fun above =>
    relates_unless Iff.rfl ?_
  rw [Value.integer?_renumber]
  refine (relates_ofExcept _ (Value.item_renumber like.number array _)).next fun item => ?_
  rw [Value.elementType_renumber]
  exact relates_pure (like.temporary _ _)

section Parts

variable {eval eval' : Evaluator} {scope scope' : ScopeId}

theorem relates_elements {nodes nodes' : List Node}
    (h : List.Forall₂ (fun node node' =>
      like.Relates like.results (eval node scope) (eval' node' scope')) nodes nodes') :
    like.Relates (fun values values' => values' = values.map (Value.renumber like.number))
      (elements eval scope nodes) (elements eval' scope' nodes') := by
  induction h with
  | nil => exact relates_pure rfl
  | cons hnode _ ih =>
    refine hnode.bind fun result result' hresult => ?_
    refine (relates_valueOf hresult).next fun first => ih.next fun rest => relates_pure rfl

variable {array array' index index' : Node}
  (harray : like.Relates like.results (eval array scope) (eval' array' scope'))

include harray

theorem relates_access
    (hindex : like.Relates like.results (eval index scope) (eval' index' scope')) :
    like.Relates like.operands (access eval scope array index)
      (access eval' scope' array' index') := by
  refine harray.bind fun result result' hresult => ?_
  cases hresult with
  | none => exact relates_raise _
  | some harray =>
    refine relates_unless (by rw [like.type harray]) (hindex.bind fun result result' hresult => ?_)
    cases hresult with
    | none => exact relates_raise _
    | some hindex =>
      refine relates_unless (by rw [like.type hindex]) ?_
      refine (relates_read harray).next fun items => (relates_read hindex).next fun position => ?_
      exact relates_element items position

theorem relates_length :
    like.Relates like.operands (length eval scope array) (length eval' scope' array') := by
  refine harray.bind fun result result' hresult => ?_
  refine (relates_typeOf hresult).next fun type => relates_unless Iff.rfl ?_
  refine (relates_valueOf hresult).next fun value => ?_
  refine (relates_same _ (Value.length_renumber like.number value)).next fun count => ?_
  exact relates_pure (like.temporary .number (.number count))

end Parts

end Likeness

end LevelScript

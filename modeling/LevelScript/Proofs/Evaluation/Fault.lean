import LevelScript.Proofs.Evaluation.Logic
import LevelScript.Proofs.Evaluation.Typing

set_option autoImplicit false

namespace LevelScript

namespace Fault

/-- The fault of a tree that no source has, or of a part, an item or a divisor that is not there. -/
def ofTree : Fault → Bool
  | .shape _ | .absent _ _ | .scope (.unknownType _) => true
  | .value .noItem | .value .divisionByZero => true
  | _ => false

def ofKinds : Fault → Bool
  | .value (.unsupported _ _ _) | .value (.notJoined _ _) | .value (.notCount _)
  | .value (.notNegated _) | .value (.notOrdered _ _ _) | .value (.noLength _)
  | .value (.notDuration _) => true
  | _ => false

/-- A fault that no evaluation has to avoid. -/
structure Harmless (functions : Bool) (cause : Fault) : Prop where
  tree : cause.ofTree = false
  kinds : functions = false → cause.ofKinds = false

variable {functions : Bool}

theorem harmless_type (cause : TypeFault) : Harmless functions (.type cause) :=
  ⟨rfl, fun _ => rfl⟩

theorem harmless_action (cause : ActionFault) : Harmless functions (.action cause) :=
  ⟨rfl, fun _ => rfl⟩

theorem harmless_numeral (cause : NumeralFault) : Harmless functions (.numeral cause) :=
  ⟨rfl, fun _ => rfl⟩

theorem harmless_wait (cause : WaitFault) : Harmless functions (.wait cause) :=
  ⟨rfl, fun _ => rfl⟩

theorem harmless_of_functions {cause : Fault} (hf : functions = true) (h : cause.ofTree = false) :
    Harmless functions cause := by
  refine ⟨h, fun hnone => ?_⟩
  rw [hf] at hnone
  cases hnone

end Fault

namespace Value

variable {functions : Bool}

theorem order_error (op : Order) (left right : Value) :
    ∀ reason, order op left right = .error reason →
      ∃ kind other, reason = .notOrdered op kind other := by
  refine order.induct (fun left right => ∀ reason, order op left right = .error reason →
      ∃ kind other, reason = .notOrdered op kind other)
    (fun xs ys => ∀ reason, orderItems op xs ys = .error reason →
      ∃ kind other, reason = .notOrdered op kind other) ?_ ?_ ?_ ?_ ?_ ?_ ?_ left right
  · intro s t reason h
    cases h
  · intro xs ys ih reason h
    exact ih reason h
  · intro left right htexts harrays m n hn hm reason h
    rw [order] at h
    · rw [hm, hn] at h
      cases h
    · exact htexts
    · exact harrays
  · intro left right htexts harrays hnumbers reason h
    rw [order] at h
    · split at h
      · next m n hm hn => exact absurd hn (hnumbers m n hm)
      · cases h
        exact ⟨_, _, rfl⟩
    · exact htexts
    · exact harrays
  · intro x xs y ys hsame ih reason h
    rw [orderItems, if_pos hsame] at h
    exact ih reason h
  · intro x xs y ys hdifferent ih reason h
    rw [orderItems, if_neg hdifferent] at h
    exact ih reason h
  · intro xs ys hends reason h
    rw [orderItems] at h
    · cases h
    · exact hends

theorem harmless_order (op : Order) {left right : Value} (hl : left.Fits functions .number)
    (hr : right.Fits functions .number) (reason : ValueFault)
    (h : order op left right = .error reason) : Fault.Harmless functions (.value reason) := by
  obtain ⟨kind, other, rfl⟩ := order_error op left right reason h
  cases hl with
  | number =>
    cases hr with
    | number => cases h
    | void _ htype => exact absurd htype (by decide)
    | function hf => exact Fault.harmless_of_functions hf rfl
  | void _ htype => exact absurd htype (by decide)
  | function hf => exact Fault.harmless_of_functions hf rfl

theorem harmless_arithmetic {op : Arithmetic} {left right : Value}
    (hl : left.Fits functions .number) (hr : right.Fits functions .number)
    (hdivisor : op = .divide → right.same (.number 0) = false) (reason : ValueFault)
    (h : arithmetic op left right = .error reason) : Fault.Harmless functions (.value reason) := by
  cases hl with
  | number =>
    cases hr with
    | number =>
      simp only [arithmetic, integer?] at h
      split at h
      · next hzero => exact absurd (hdivisor hzero.1) (by simp [same, hzero.2])
      · cases h
    | void _ htype => exact absurd htype (by decide)
    | function hf => cases op <;> cases h <;> exact Fault.harmless_of_functions hf rfl
  | void _ htype => exact absurd htype (by decide)
  | function hf =>
    cases hr with
    | number => cases op <;> cases h <;> exact Fault.harmless_of_functions hf rfl
    | void _ htype => exact absurd htype (by decide)
    | function => cases op <;> cases h <;> exact Fault.harmless_of_functions hf rfl

theorem harmless_negated {operand : Value} (ho : operand.Fits functions .number)
    (reason : ValueFault) (h : operand.negated = .error reason) :
    Fault.Harmless functions (.value reason) := by
  cases ho with
  | number => cases h
  | void _ htype => exact absurd htype (by decide)
  | function hf =>
    cases h
    exact Fault.harmless_of_functions hf rfl

theorem harmless_length {array : Value} (ha : array.Fits functions .array) (reason : ValueFault)
    (h : array.length = .error reason) : Fault.Harmless functions (.value reason) := by
  cases ha with
  | array => cases h
  | void _ htype => exact absurd htype (by decide)
  | function hf =>
    cases h
    exact Fault.harmless_of_functions hf rfl

/-- An index that has passed both checks is that of an item. -/
theorem item_ne_error {array index : Value} {length : Nat} (ha : array.Fits functions .array)
    (hi : index.Fits functions .number) (hbelow : order .less index (.number 0) = .ok false)
    (hlength : array.length = .ok length)
    (habove : order .atLeast index (.number length) = .ok false) (reason : ValueFault) :
    array.item (index.integer?.getD 0).toNat ≠ .error reason := by
  cases hi with
  | void _ htype => exact absurd htype (by decide)
  | function => cases hbelow
  | @number n =>
    cases ha with
    | void _ htype => exact absurd htype (by decide)
    | function => cases hlength
    | @array items =>
      obtain rfl : items.length = length := Except.ok.inj hlength
      have hlow : ¬n < 0 := by simpa [order, integer?, Order.ofInts, Order.holds] using hbelow
      have hhigh : n < items.length := by
        simpa [order, integer?, Order.ofInts, Order.holds] using habove
      have hindex : n.toNat < items.length := by omega
      simp [item, items?, integer?, hindex]

end Value

namespace Forest

variable {functions : Bool}

theorem harmless_resolve {forest : Forest} {id : ScopeId} {name : String} (reason : ScopeFault)
    (h : forest.resolve id name = .error reason) : Fault.Harmless functions (.scope reason) := by
  rw [resolve] at h
  split at h <;> cases h
  exact ⟨rfl, fun _ => rfl⟩

theorem harmless_target {forest : Forest} {id : ScopeId} {name : String} {type : TypeName}
    (reason : ScopeFault) (h : forest.target id name type = .error reason) :
    Fault.Harmless functions (.scope reason) := by
  rw [target, resolve] at h
  cases hfound : forest.nearest? name (forest.chain id) with
  | none =>
    rw [hfound] at h
    cases h
    exact ⟨rfl, fun _ => rfl⟩
  | some found =>
    simp only [hfound, bind, Except.bind] at h
    split at h
    · cases h
      exact ⟨rfl, fun _ => rfl⟩
    · split at h
      · cases h
        exact ⟨rfl, fun _ => rfl⟩
      · cases h

theorem startValue_ne_error {type : TypeName} {value : Value} {isFunction : Bool}
    (ht : isFunction = true ∨ type ∈ TypeName.declarable) (reason : ScopeFault) :
    Scope.startValue type value isFunction ≠ .error reason := by
  intro h
  unfold Scope.startValue at h
  split at h
  · rcases ht with hfunction | ht
    · cases hfunction
    · simp only [TypeName.declarable, List.mem_cons, List.not_mem_nil, or_false] at ht
      rcases ht with rfl | rfl | rfl | rfl <;> cases h
  · cases h

theorem harmless_newRow {forest : Forest} {id : ScopeId} {name : String} {type : TypeName}
    {value : Value} {isFunction : Bool} (ht : isFunction = true ∨ type ∈ TypeName.declarable)
    (reason : ScopeFault) (h : forest.newRow id name type value isFunction = .error reason) :
    Fault.Harmless functions (.scope reason) := by
  rw [newRow] at h
  split at h
  · cases h
    exact ⟨rfl, fun _ => rfl⟩
  · rw [Scope.newRow] at h
    split at h
    · cases h
      exact ⟨rfl, fun _ => rfl⟩
    · simp only [bind, Except.bind] at h
      split at h
      · next hstarted => exact absurd hstarted (startValue_ne_error ht _)
      · cases h

end Forest

theorem BinaryOp.apply_error {functions : Bool} {op : BinaryOp} {leftType rightType : TypeName}
    {left right : Value} {cause : Fault} (hop : op ∈ BinaryOp.all)
    (hl : left.Fits functions leftType) (hr : right.Fits functions rightType)
    (h : op.apply leftType left rightType right = .error cause) :
    cause.Harmless functions ∨ ∃ relation xs ys reason, op = .order relation ∧
      leftType = .array ∧ rightType = .array ∧ left = .array xs ∧ right = .array ys ∧
      Value.order relation (.array xs) (.array ys) = .error reason ∧ cause = .value reason := by
  have happlies := h ▸ op.applies leftType left rightType right
  cases happlies with
  | refused => exact .inl (Fault.harmless_type _)
  | uncomputed hdivisor hreason =>
    exact .inl (Value.harmless_arithmetic hl hr hdivisor _ hreason)
  | @unordered relation type reason hreason =>
    obtain ⟨kind, other, hkinds⟩ := Value.order_error _ _ _ _ hreason
    have hfunctions (hf : functions = true) : Fault.Harmless functions (.value reason) :=
      Fault.harmless_of_functions hf (hkinds ▸ rfl)
    cases hl with
    | void hf => exact .inl (hfunctions hf)
    | function hf => exact .inl (hfunctions hf)
    | number =>
      cases hr with
      | number => cases hreason
      | void hf => exact .inl (hfunctions hf)
      | function hf => exact .inl (hfunctions hf)
    | text =>
      cases hr with
      | text => cases hreason
      | void hf => exact .inl (hfunctions hf)
      | function hf => exact .inl (hfunctions hf)
    | boolean =>
      cases hr with
      | boolean => cases hreason
      | void hf => exact .inl (hfunctions hf)
      | function hf => exact .inl (hfunctions hf)
    | array =>
      cases hr with
      | array => exact .inr ⟨relation, _, _, reason, rfl, rfl, rfl, rfl, rfl, hreason, rfl⟩
      | void hf => exact .inl (hfunctions hf)
      | function hf => exact .inl (hfunctions hf)
  | unknown => exact absurd hop (by simp [BinaryOp.all])

namespace Evaluation

variable {α β : Type}

inductive ComesTo (y : Evaluation β) (last : World) : Evaluation α → World → Prop where
  | now (f : β → Evaluation α) : ComesTo y last (y >>= f) last
  | later {update : World → World} {next : World → Evaluation α} {world : World} :
      ComesTo y last (next (update world)) (update world) → ComesTo y last (.act update next) world

instance : LawfulMonad Evaluation :=
  .mk' Evaluation
    (fun x => by
      change x.bind .done = x
      induction x with
      | done result => rfl
      | stopped reason => rfl
      | act update next ih => exact congrArg (act update) (funext fun world => ih world))
    (fun _ _ => rfl)
    (fun x f g => by
      change (x.bind f).bind g = x.bind fun a => (f a).bind g
      induction x with
      | done result => rfl
      | stopped reason => rfl
      | act update next ih => exact congrArg (act update) (funext fun world => ih world))

namespace ComesTo

variable {γ : Type} {y : Evaluation γ} {world last : World}

theorem self (y : Evaluation γ) (world : World) : ComesTo y world y world := by
  have h : ComesTo y world (y >>= pure) world := .now pure
  rwa [bind_pure] at h

theorem bind {x : Evaluation α} (h : ComesTo y last x world) (f : α → Evaluation β) :
    ComesTo y last (x >>= f) world := by
  induction h with
  | now g =>
    rw [bind_assoc]
    exact .now _
  | later _ ih => exact .later ih

theorem after {x : Evaluation α} {f : α → Evaluation β} {middle : World} {a : α}
    (hrun : x.run world = (.ok a, middle)) (h : ComesTo y last (f a) middle) :
    ComesTo y last (x >>= f) world := by
  change ComesTo y last (x.bind f) world
  induction x generalizing world with
  | done result =>
    cases hrun
    exact h
  | stopped reason => cases hrun
  | act update next ih => exact .later (ih _ hrun)

end ComesTo

/-- The evaluation comes to order two arrays in the world `last`, which fails for this cause. -/
def OrdersArrays (x : Evaluation α) (world last : World) (cause : Fault) : Prop :=
  ∃ (op : Order) (left right : Operand) (xs ys : List Value) (reason : ValueFault),
    ComesTo (binary (.order op) (some left) (some right)) last x world ∧
      left.type = .array ∧ right.type = .array ∧ left.value last.forest = .array xs ∧
      right.value last.forest = .array ys ∧
      Value.order op (.array xs) (.array ys) = .error reason ∧ cause = .value reason

end Evaluation

end LevelScript

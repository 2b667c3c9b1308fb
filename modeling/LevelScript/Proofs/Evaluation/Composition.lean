import LevelScript.Evaluation.Node
import LevelScript.Proofs.Parser.Shape

set_option autoImplicit false

/-!
# What evaluations are composed of

Most steps of an evaluation only look at the world. A property of evaluations that these have and
that sequences hand on is a property of every expression whose parts and calls have it. If the few
steps that change something in a scope have it too, it is a property of every action.
-/

namespace LevelScript.Evaluation

variable {α β : Type}

/-- The world is only looked at, and nothing but a fault stops the evaluation. -/
def Looks : Evaluation α → Prop
  | .done _ => True
  | .stopped reason => ∃ cause, reason = .fault cause
  | .act update next => update = id ∧ ∀ world, (next world).Looks

theorem Looks.bind {x : Evaluation α} {f : α → Evaluation β} (hx : x.Looks)
    (hf : ∀ a, (f a).Looks) : (x >>= f).Looks := by
  change (x.bind f).Looks
  induction x with
  | done result => exact hf result
  | stopped reason => exact hx
  | act update next ih => exact ⟨hx.1, fun world => ih world (hx.2 world)⟩

theorem looks_pure (a : α) : (pure a : Evaluation α).Looks :=
  trivial

theorem looks_raise (cause : Fault) : (raise cause : Evaluation α).Looks :=
  ⟨cause, rfl⟩

theorem looks_unless {p : Prop} [Decidable p] {cause : Fault} {f : β → Evaluation α}
    {x : Evaluation α} (hx : x.Looks) : (if p then raise cause >>= f else x).Looks := by
  split
  · exact ⟨cause, rfl⟩
  · exact hx

theorem looks_forest : forest.Looks :=
  ⟨rfl, fun _ => trivial⟩

theorem looks_titles : titles.Looks :=
  ⟨rfl, fun _ => trivial⟩

theorem looks_ofExcept {ε : Type} (fault : ε → Fault) (x : Except ε α) :
    (ofExcept fault x).Looks := by
  cases x with
  | ok a => exact looks_pure a
  | error cause => exact looks_raise _

theorem looks_resolve (scope : ScopeId) (name : String) : (resolve scope name).Looks :=
  looks_forest.bind fun _ => looks_ofExcept _ _

theorem looks_read (operand : Operand) : (read operand).Looks :=
  looks_forest.bind fun _ => looks_pure _

theorem looks_typeOf (result : Option Operand) : (typeOf result).Looks := by
  cases result with
  | none => exact looks_raise _
  | some operand => exact looks_pure _

theorem looks_valueOf (result : Option Operand) : (valueOf result).Looks := by
  cases result with
  | none => exact looks_raise _
  | some operand => exact looks_read operand

theorem looks_display (value : Value) : (display value).Looks :=
  looks_titles.bind fun _ => looks_ofExcept _ _

theorem looks_binary (op : BinaryOp) (left right : Option Operand) :
    (binary op left right).Looks := by
  cases left with
  | none => exact looks_raise _
  | some left =>
    cases right with
    | none => exact looks_raise _
    | some right =>
      refine (looks_read left).bind fun _ => (looks_read right).bind fun _ => ?_
      exact (looks_ofExcept _ _).bind fun _ => looks_pure _

theorem looks_unary (op : UnaryOp) (operand : Option Operand) : (unary op operand).Looks := by
  cases operand with
  | none => exact looks_raise _
  | some operand =>
    cases op with
    | minus =>
      refine looks_unless ((looks_read operand).bind fun _ => ?_)
      exact (looks_ofExcept _ _).bind fun _ => looks_pure _
    | not => exact looks_unless ((looks_read operand).bind fun _ => looks_pure _)
    | plus => exact looks_pure _
    | other spelling => exact looks_pure _

theorem looks_element (array index : Value) : (element array index).Looks := by
  refine (looks_ofExcept _ _).bind fun _ => looks_unless ?_
  refine (looks_ofExcept _ _).bind fun _ => ?_
  refine (looks_ofExcept _ _).bind fun _ => looks_unless ?_
  exact (looks_ofExcept _ _).bind fun _ => looks_pure _

theorem looks_nameOf (node : Node) : (nameOf node).Looks := by
  unfold nameOf
  split
  · exact looks_pure _
  · exact looks_raise _

theorem looks_parameterName (parameter : Node) : (parameterName parameter).Looks := by
  unfold parameterName
  split
  · exact looks_nameOf _
  · exact looks_raise _

theorem looks_outcome (name : String) (type : Option TypeName) (returned : Option Operand) :
    (outcome name type returned).Looks := by
  cases type with
  | none => exact looks_pure _
  | some type =>
    cases returned with
    | none => exact looks_raise _
    | some operand => exact looks_unless (looks_pure _)

/-- A property that the steps which only look have, and a sequence if its parts have it. -/
structure Composes (P : {α : Type} → Evaluation α → Prop) : Prop where
  looks {α : Type} {x : Evaluation α} : x.Looks → P x
  bind {α β : Type} {x : Evaluation α} {f : α → Evaluation β} :
    P x → (∀ a, P (f a)) → P (x >>= f)

/-- An evaluation with the property, maybe after another inventory has been put into the forest. -/
inductive Restocks (P : {α : Type} → Evaluation α → Prop) (scope : ScopeId) (forest : Forest) :
    Evaluation α → Prop where
  | same {x : Evaluation α} : P x → Restocks P scope forest x
  | other {items : List Value} {changed : Forest} {x : Evaluation α} :
      withInventory? forest scope items = some changed → P x →
      Restocks P scope forest
        (change (fun world => { world with forest := changed }) >>= fun _ => x)

/-- A property that also the changes of actions in a scope have: events, assignments to variables
and another inventory. -/
structure Acts (scope : ScopeId) (P : {α : Type} → Evaluation α → Prop) : Prop
    extends Composes P where
  emit (event : Event) : P (emit event)
  assign (name : String) (type : TypeName) (value : Value) : P (assign scope name type value)
  restock {α : Type} {f : Forest → Evaluation α} :
    (∀ forest, Restocks P scope forest (f forest)) → P (Evaluation.forest >>= f)

section Expressions

variable {P : {α : Type} → Evaluation α → Prop} {eval : Evaluator} {scope : ScopeId}

theorem Composes.looks_bind {x : Evaluation α} {f : α → Evaluation β} (h : Composes P)
    (hx : x.Looks) (hf : ∀ a, P (f a)) : P (x >>= f) :=
  h.bind (h.looks hx) hf

theorem Composes.unless {p : Prop} [Decidable p] {cause : Fault} {f : β → Evaluation α}
    {x : Evaluation α} (h : Composes P) (hx : P x) :
    P (if p then Evaluation.raise cause >>= f else x) := by
  split
  · exact h.looks (looks_raise cause)
  · exact hx

theorem elements_composed {nodes : List Node} (h : Composes P)
    (hnodes : ∀ node ∈ nodes, P (eval node scope)) : P (elements eval scope nodes) := by
  induction nodes with
  | nil => exact h.looks (looks_pure _)
  | cons node nodes ih =>
    obtain ⟨hnode, hnodes⟩ := List.forall_mem_cons.1 hnodes
    refine h.bind hnode fun result => h.looks_bind (looks_valueOf result) fun _ => ?_
    exact h.bind (ih hnodes) fun _ => h.looks (looks_pure _)

theorem access_composed {array index : Node} (h : Composes P) (ha : P (eval array scope))
    (hi : P (eval index scope)) : P (access eval scope array index) := by
  refine h.bind ha fun result => ?_
  cases result with
  | none => exact h.looks (looks_raise _)
  | some array =>
    refine h.unless (h.bind hi fun result => ?_)
    cases result with
    | none => exact h.looks (looks_raise _)
    | some index =>
      refine h.unless (h.looks ?_)
      exact (looks_read array).bind fun _ => (looks_read index).bind fun _ => looks_element _ _

theorem length_composed {array : Node} (h : Composes P) (ha : P (eval array scope)) :
    P (length eval scope array) := by
  refine h.bind ha fun result => h.looks_bind (looks_typeOf result) fun _ => ?_
  refine h.unless (h.looks ?_)
  exact (looks_valueOf result).bind fun _ => (looks_ofExcept _ _).bind fun _ => looks_pure _

theorem expression_composed {node : Node} (h : Composes P) (rounds : Nat)
    (hnode : node.isExpression = true) (hchildren : ∀ child ∈ node.children, P (eval child scope))
    (hcall : ∀ id name arguments, node = .call id name arguments →
      P (call eval scope name arguments)) : P (step rounds eval node scope) := by
  have handed {x : Evaluation Operand} (hx : P x) :
      P (x >>= fun operand => pure (some operand)) :=
    h.bind hx fun _ => h.looks (looks_pure _)
  cases node with
  | number | boolean | text | literal => exact h.looks (looks_pure _)
  | identifier id name => exact h.looks ((looks_resolve scope name).bind fun _ => looks_pure _)
  | binary id op left right =>
    obtain ⟨hl, hr⟩ := List.forall_mem_cons.1 hchildren
    refine h.bind hl fun left => h.bind (hr _ List.mem_cons_self) fun right => ?_
    exact handed (h.looks (looks_binary op left right))
  | unary id op operand =>
    refine h.bind (hchildren _ List.mem_cons_self) fun operand => ?_
    exact handed (h.looks (looks_unary op operand))
  | array id nodes =>
    exact h.bind (elements_composed h hchildren) fun _ => h.looks (looks_pure _)
  | access id array index =>
    obtain ⟨ha, hi⟩ := List.forall_mem_cons.1 hchildren
    exact handed (access_composed h ha (hi _ List.mem_cons_self))
  | length id array => exact handed (length_composed h (hchildren _ List.mem_cons_self))
  | call id name arguments => exact handed (hcall id name arguments rfl)
  | blank | assignment | declaration | function | block | skip | conditional | loop | result
  | action => cases hnode

theorem holds_composed {condition : Node} (h : Composes P) (hc : P (eval condition scope))
    (fault : TypeFault) : P (holds eval scope condition fault) := by
  refine h.bind hc fun result => ?_
  cases result with
  | none => exact h.looks (looks_raise _)
  | some operand =>
    exact h.unless (h.looks ((looks_read operand).bind fun _ => looks_pure _))

theorem declaration_composed {type : Option TypeName} {label : Node} {value : Option Node}
    (h : Composes P) (hvalue : ∀ node ∈ value, P (eval node scope))
    (hdeclare : ∀ name type value, P (declare scope name type value false)) :
    P (declaration eval scope type label value) := by
  refine h.looks_bind (looks_nameOf label) fun name => ?_
  cases type with
  | none => exact h.looks (looks_raise _)
  | some type =>
    cases value with
    | none => exact hdeclare _ _ _
    | some node =>
      refine h.bind (hvalue node rfl) fun result => ?_
      cases result with
      | none => exact h.looks (looks_raise _)
      | some operand =>
        exact h.unless (h.looks_bind (looks_read operand) fun _ => hdeclare _ _ _)

theorem bindParameters_composed {inner : ScopeId} {name : String}
    {parameters arguments : List Node} (h : Composes P)
    (ha : ∀ argument ∈ arguments, P (eval argument scope))
    (hdeclare : ∀ name type value, P (declare inner name type value false)) :
    P (bindParameters eval scope inner name parameters arguments) := by
  induction parameters generalizing arguments with
  | nil => exact h.looks (looks_pure _)
  | cons parameter parameters ih =>
    cases arguments with
    | nil => exact h.looks (looks_pure _)
    | cons argument arguments =>
      obtain ⟨hargument, ha⟩ := List.forall_mem_cons.1 ha
      refine h.looks_bind (looks_parameterName parameter) fun label => ?_
      refine h.bind hargument fun result => ?_
      cases result with
      | none => exact h.looks (looks_raise _)
      | some operand =>
        refine h.unless (h.looks_bind (looks_read operand) fun _ => ?_)
        exact h.bind (hdeclare _ _ _) fun _ => ih ha

theorem gatheredItem_composed {argument : Node} (h : Composes P) (ha : P (eval argument scope)) :
    P (gatheredItem eval scope argument) := by
  unfold gatheredItem
  split
  · exact h.looks (looks_pure _)
  · refine h.bind ha fun result => h.looks ((looks_typeOf result).bind fun _ => ?_)
    split
    · exact looks_valueOf result
    · exact (looks_valueOf result).bind fun _ => (looks_display _).bind fun _ => looks_pure _

end Expressions

section Actions

variable {P : {α : Type} → Evaluation α → Prop} {eval : Evaluator} {scope : ScopeId}
  {arguments : List Node}

theorem Acts.say (h : Acts scope P) (text : String) : P (say text) :=
  h.emit _

theorem Acts.report (h : Acts scope P) (value : Value) (text : String → String) :
    P (display value >>= fun shown => Evaluation.say (text shown)) :=
  h.looks_bind (looks_display value) fun _ => h.say _

theorem assignment_composed {target value : Node} (h : Acts scope P)
    (hv : P (eval value scope)) : P (assignment eval scope target value) := by
  unfold assignment
  split
  · refine h.bind hv fun result => ?_
    cases result with
    | none => exact h.looks (looks_raise _)
    | some operand => exact h.looks_bind (looks_read operand) fun _ => h.assign _ _ _
  · exact h.looks (looks_raise _)

theorem sayAction_composed (h : Acts scope P) (ha : ∀ node ∈ arguments, P (eval node scope)) :
    P (sayAction eval scope arguments) := by
  unfold sayAction
  split
  · refine h.bind (ha _ List.mem_cons_self) fun result => ?_
    exact h.looks_bind (looks_valueOf result) fun value => h.report value id
  · exact h.looks (looks_raise _)

theorem waitFor_composed (h : Acts scope P) (duration : Value) : P (waitFor duration) := by
  unfold waitFor
  split
  · split
    · exact h.looks (looks_raise _)
    split
    · exact h.looks (looks_raise _)
    · exact h.emit _
  · exact h.emit _
  · exact h.looks (looks_raise _)

theorem waitAction_composed (h : Acts scope P) (ha : ∀ node ∈ arguments, P (eval node scope)) :
    P (waitAction eval scope arguments) := by
  unfold waitAction
  split
  · refine h.bind (ha _ List.mem_cons_self) fun result => ?_
    refine h.looks_bind (looks_typeOf result) fun _ => h.unless ?_
    exact h.looks_bind (looks_valueOf result) fun value => waitFor_composed h value
  · exact h.looks (looks_raise _)

theorem moveAction_composed (h : Acts scope P) (ha : ∀ node ∈ arguments, P (eval node scope)) :
    P (moveAction eval scope arguments) := by
  unfold moveAction
  split
  · refine h.bind (ha _ List.mem_cons_self) fun result => ?_
    refine h.looks_bind (looks_typeOf result) fun _ => h.unless ?_
    refine h.looks_bind (looks_valueOf result) fun value => ?_
    exact h.report value fun shown => "Movendo " ++ shown ++ " unidades"
  · exact h.looks (looks_raise _)

theorem strike_composed {name : String} {points : Value} {lead : Evaluation String}
    (h : Acts scope P) (hlead : lead.Looks) : P (strike scope name points lead) := by
  refine h.bind (h.assign _ _ _) fun _ => h.looks_bind hlead fun _ => ?_
  refine h.looks_bind (looks_display _) fun _ => h.bind (h.say _) fun _ => ?_
  refine h.looks_bind (looks_ofExcept _ _) fun _ => ?_
  split
  · exact h.say _
  · exact h.looks (looks_pure _)

theorem attackAction_composed (h : Acts scope P) (ha : ∀ node ∈ arguments, P (eval node scope)) :
    P (attackAction eval scope arguments) := by
  unfold attackAction
  split
  · refine h.looks_bind looks_forest fun _ => ?_
    split
    · exact h.looks (looks_raise _)
    · refine h.unless (h.looks_bind (looks_ofExcept _ _) fun _ => ?_)
      exact strike_composed h (looks_pure _)
  · refine h.bind (ha _ List.mem_cons_self) fun target => ?_
    refine h.looks_bind (looks_typeOf target) fun _ => h.unless ?_
    refine h.looks_bind (looks_valueOf target) fun _ => ?_
    exact h.looks_bind (looks_ofExcept _ _) fun _ => strike_composed h (looks_pure _)
  · exact h.looks (looks_raise _)
  · obtain ⟨htarget, hdamage⟩ := List.forall_mem_cons.1 ha
    refine h.bind htarget fun target => ?_
    refine h.bind (hdamage _ List.mem_cons_self) fun damage => ?_
    refine h.looks_bind (looks_typeOf target) fun _ => h.unless ?_
    refine h.looks_bind (looks_typeOf damage) fun _ => h.unless ?_
    refine h.looks_bind (looks_valueOf target) fun _ => ?_
    refine h.looks_bind (looks_valueOf damage) fun _ => ?_
    refine h.looks_bind (looks_ofExcept _ _) fun _ => strike_composed h ?_
    refine (looks_valueOf damage).bind fun _ => ?_
    exact (looks_display _).bind fun _ => looks_pure _
  · exact h.looks (looks_raise _)
  · exact h.looks (looks_raise _)

theorem gatherAction_composed (h : Acts scope P) (ha : ∀ node ∈ arguments, P (eval node scope)) :
    P (gatherAction eval scope arguments) := by
  unfold gatherAction
  split
  · refine h.bind (gatheredItem_composed h.toComposes (ha _ List.mem_cons_self)) ?_
    refine fun item => h.restock fun forest => ?_
    split
    · next changed hchanged =>
      obtain ⟨items, _, hchanged⟩ := Option.bind_eq_some_iff.1 hchanged
      exact .other hchanged
        (h.report item fun shown => "Item '" ++ shown ++ "' adicionado ao inventory")
    · exact .same (h.report item fun shown => "Item coletado: " ++ shown)
  · exact h.looks (looks_raise _)

theorem usePotion_composed (h : Acts scope P) : P (usePotion scope) := by
  refine h.looks_bind looks_forest fun _ => ?_
  split
  · exact h.looks (looks_raise _)
  · refine h.unless (h.looks_bind looks_forest fun _ => ?_)
    refine h.looks_bind (looks_ofExcept _ _) fun total => h.looks_bind looks_forest fun _ => ?_
    refine h.looks_bind (looks_ofExcept _ _) fun _ => ?_
    refine h.bind (h.assign _ _ _) fun _ => h.restock fun forest => ?_
    have hreport (points : Value) := h.report points fun shown =>
      "Você usou uma potion. Vida agora = " ++ shown
    dsimp only
    split
    · next changed hchanged =>
      obtain ⟨items, _, hchanged⟩ := Option.bind_eq_some_iff.1 hchanged
      obtain ⟨left, _, hchanged⟩ := Option.bind_eq_some_iff.1 hchanged
      exact .other hchanged (hreport _)
    · exact .same (hreport _)

theorem useAction_composed (h : Acts scope P) (ha : ∀ node ∈ arguments, P (eval node scope)) :
    P (useAction eval scope arguments) := by
  have used (item : Value) : P (display item >>= fun shown =>
      if shown = "potion" then usePotion scope else Evaluation.say ("Usando " ++ shown)) := by
    refine h.looks_bind (looks_display item) fun shown => ?_
    split
    · exact usePotion_composed h
    · exact h.say _
  unfold useAction
  split
  · split
    · exact used _
    · refine h.bind (ha _ List.mem_cons_self) fun result => ?_
      exact h.looks_bind (looks_valueOf result) fun item => used item
  · exact h.looks (looks_raise _)

theorem action_composed (h : Acts scope P) (ha : ∀ node ∈ arguments, P (eval node scope))
    (name : ActionName) : P (action eval scope name arguments) := by
  cases name with
  | say => exact sayAction_composed h ha
  | wait => exact waitAction_composed h ha
  | move => exact moveAction_composed h ha
  | attack => exact attackAction_composed h ha
  | gather => exact gatherAction_composed h ha
  | use => exact useAction_composed h ha
  | other name => exact h.looks (looks_raise _)

end Actions

end LevelScript.Evaluation

import LevelScript.Proofs.Evaluation.Relation

set_option autoImplicit false

/-!
# Evaluation with other numbers

The evaluation of a tree goes the same way when the tree and the world get other numbers, and it
does not look at the events that happened before it. So a run can be tracked in another one that
begins with fewer events and has other numbers: the results correspond, and so do the worlds.
-/

namespace LevelScript

/-- How a run is told from the one that it is tracked in: the numbers there, the events before it,
which the other run does without, and the texts of functions there. -/
structure Renaming where
  number : Nat → Nat
  injective : Function.Injective number
  before : Array Event
  titles : Titles

/-- `image` is `world` with other numbers and without the earlier events. The functions have the
same texts. -/
structure World.Image (r : Renaming) (world image : World) : Prop where
  forest : image.forest = world.forest.renumber r.number
  events : world.events = r.before ++ image.events
  titles : image.titles = r.titles
  texts : ∀ id, r.titles.function (r.number id) = world.titles.function id

def Likeness.tracking (r : Renaming) : Likeness where
  number := r.number
  injective := r.injective
  worlds := World.Image r
  operands left right := right = left.renumber r.number
  type := by
    rintro left _ rfl
    exact left.type_renumber r.number
  value := by
    rintro left _ world image rfl himage
    rw [himage.forest, Operand.value_renumber]
  temporary _ _ := rfl

namespace Evaluation

open Likeness

variable {α β : Type} {r : Renaming}

/-- In an image of its world, `y` goes the way of `x`; results correspond by `f`. -/
abbrev Tracks (r : Renaming) (f : α → β) (x : Evaluation α) (y : Evaluation β) : Prop :=
  (tracking r).Relates (fun a b => b = f a) x y

theorem results_iff {result result' : Option Operand} :
    (tracking r).results result result' ↔ result' = result.map (Operand.renumber r.number) := by
  constructor
  · rintro (h | _)
    · exact congrArg some h
    · rfl
  · rintro rfl
    cases result with
    | none => exact .none
    | some operand => exact .some rfl

theorem tracks_forest : Tracks r (Forest.renumber r.number) Evaluation.forest Evaluation.forest :=
  fun _ _ himage => .done himage.forest himage

theorem tracks_change {update update' : World → World}
    (h : ∀ world image, World.Image r world image →
      World.Image r (update world) (update' image)) :
    Tracks r id (change update) (change update') :=
  fun world image himage => .done rfl (h world image himage)

theorem tracks_changeForest (g g' : Forest → Forest)
    (h : ∀ forest, (g forest).renumber r.number = g' (forest.renumber r.number)) :
    Tracks r id (change fun world => { world with forest := g world.forest })
      (change fun world => { world with forest := g' world.forest }) := by
  refine tracks_change fun world image himage => ⟨?_, himage.events, himage.titles, himage.texts⟩
  rw [himage.forest, h]

theorem tracks_emit (event : Event) : Tracks r id (emit event) (emit event) := by
  refine tracks_change fun world image himage => ⟨himage.forest, ?_, himage.titles, himage.texts⟩
  change world.events.push event = r.before ++ image.events.push event
  rw [himage.events, Array.append_push]

theorem tracks_say (text : String) : Tracks r id (say text) (say text) :=
  tracks_emit _

theorem tracks_resolve (scope : ScopeId) (name : String) :
    Tracks r (Prod.map id (Row.renumber r.number)) (resolve scope name) (resolve scope name) :=
  tracks_forest.next fun forest =>
    relates_ofExcept _ (Forest.resolve_renumber r.number forest scope name)

theorem tracks_assign (scope : ScopeId) (name : String) (type : TypeName) (value : Value) :
    Tracks r id (assign scope name type value)
      (assign scope name type (value.renumber r.number)) := by
  refine tracks_forest.next fun forest => ?_
  refine (relates_same _ (Forest.target_renumber r.number forest ..)).next fun owner => ?_
  exact tracks_changeForest (·.write owner name value)
    (·.write owner name (value.renumber r.number))
    fun forest => forest.write_renumber r.number _ _ _

theorem tracks_declare (scope : ScopeId) (name : String) (type : TypeName) (value : Value)
    (isFunction : Bool) :
    Tracks r id (declare scope name type value isFunction)
      (declare scope name type (value.renumber r.number) isFunction) := by
  refine tracks_forest.next fun forest => ?_
  refine (relates_ofExcept _ (Forest.newRow_renumber ..)).next fun row => ?_
  exact tracks_changeForest (·.add scope row) (·.add scope (row.renumber r.number))
    fun forest => forest.add_renumber r.number scope row

theorem tracks_enclose (parent : ScopeId) : Tracks r id (enclose parent) (enclose parent) := by
  refine tracks_forest.next fun forest => ?_
  have hsize : (forest.renumber r.number).scopes.size = forest.scopes.size := Array.size_map
  dsimp only
  rw [hsize]
  have hgrow (forest : Forest) : (forest.grow (some parent)).2.renumber r.number =
      ((forest.renumber r.number).grow (some parent)).2 := by
    rw [Forest.grow_renumber]
  exact (tracks_changeForest (fun forest => (forest.grow (some parent)).2)
    (fun forest => (forest.grow (some parent)).2) hgrow).next fun _ => relates_pure rfl

theorem tracks_read (operand : Operand) :
    Tracks r (Value.renumber r.number) (read operand) (read (operand.renumber r.number)) :=
  relates_read rfl

theorem tracks_typeOf (result : Option Operand) :
    Tracks r id (typeOf result) (typeOf (result.map (Operand.renumber r.number))) :=
  relates_typeOf (results_iff.2 rfl)

theorem tracks_valueOf (result : Option Operand) :
    Tracks r (Value.renumber r.number) (valueOf result)
      (valueOf (result.map (Operand.renumber r.number))) :=
  relates_valueOf (results_iff.2 rfl)

theorem tracks_display (value : Value) :
    Tracks r id (display value) (display (value.renumber r.number)) := by
  intro world image himage
  have htexts := himage.texts
  rw [← himage.titles] at htexts
  have hdisplay := Value.display_renumber htexts value
  exact relates_same .numeral hdisplay world image himage

def TracksOn (r : Renaming) (eval : Evaluator) : Prop :=
  ∀ node scope, Tracks r (Option.map (Operand.renumber r.number)) (eval node scope)
    (eval (node.renumber r.number) scope)

section Parts

variable {eval : Evaluator} (he : TracksOn r eval) (scope : ScopeId)

include he

theorem TracksOn.results (node : Node) :
    (tracking r).Relates (tracking r).results (eval node scope)
      (eval (node.renumber r.number) scope) :=
  (he node scope).mono fun _ _ => results_iff.2

theorem tracks_assignment (target value : Node) :
    Tracks r id (assignment eval scope target value)
      (assignment eval scope (target.renumber r.number) (value.renumber r.number)) := by
  cases target with
  | identifier id name =>
    refine (he value scope).next fun result => ?_
    cases result with
    | none => exact relates_raise _
    | some operand =>
      refine (tracks_read operand).next fun value => ?_
      rw [Operand.type_renumber]
      exact tracks_assign scope name operand.type value
  | _ => exact relates_raise _

omit he in
theorem tracks_nameOf (node : Node) :
    Tracks r id (nameOf node) (nameOf (node.renumber r.number)) := by
  rw [nameOf, nameOf, Node.name?_renumber, Node.kind_renumber]
  cases node.name? with
  | none => exact relates_raise _
  | some name => exact relates_pure rfl

theorem tracks_declaration (type : Option TypeName) (label : Node) (value : Option Node) :
    Tracks r id (declaration eval scope type label value)
      (declaration eval scope type (label.renumber r.number)
        (value.map (Node.renumber r.number))) := by
  refine (tracks_nameOf label).next fun name => ?_
  cases type with
  | none => exact relates_raise _
  | some type =>
    cases value with
    | none => exact tracks_declare scope name type .void false
    | some node =>
      refine (he node scope).next fun result => ?_
      cases result with
      | none => exact relates_raise _
      | some operand =>
        dsimp only [Option.map_some]
        rw [Operand.type_renumber]
        refine relates_unless Iff.rfl ((tracks_read operand).next fun value => ?_)
        exact tracks_declare scope name type value false

theorem tracks_commands (nodes : List Node) :
    Tracks r id (commands eval scope nodes)
      (commands eval scope (nodes.map (Node.renumber r.number))) := by
  induction nodes with
  | nil => exact relates_pure rfl
  | cons node nodes ih =>
    rw [List.map_cons, commands, commands, Node.isBlock_renumber]
    split
    · exact (tracks_enclose scope).next fun inner => (he node inner).next fun _ => ih
    · exact (he node scope).next fun _ => ih

theorem tracks_holds (condition : Node) (fault : TypeFault) :
    Tracks r id (holds eval scope condition fault)
      (holds eval scope (condition.renumber r.number) fault) := by
  refine (he condition scope).next fun result => ?_
  cases result with
  | none => exact relates_raise _
  | some operand =>
    refine relates_unless (by rw [Operand.type_renumber]) ?_
    refine (tracks_read operand).next fun value => ?_
    exact relates_pure (Value.truth_renumber r.number value)

theorem tracks_conditional (condition positive : Node) (negative : Option Node) :
    Tracks r (Option.map (Operand.renumber r.number))
      (conditional eval scope condition positive negative)
      (conditional eval scope (condition.renumber r.number) (positive.renumber r.number)
        (negative.map (Node.renumber r.number))) := by
  refine (tracks_holds he scope condition _).next fun truth => ?_
  cases truth with
  | true => exact he positive scope
  | false =>
    cases negative with
    | none => exact relates_pure rfl
    | some negative => exact he negative scope

theorem tracks_loop (condition body : Node) (rounds : Nat) :
    Tracks r id (loop eval scope condition body rounds)
      (loop eval scope (condition.renumber r.number) (body.renumber r.number) rounds) := by
  induction rounds with
  | zero => exact relates_stop _
  | succ rounds ih =>
    refine (tracks_holds he scope condition _).next fun truth => ?_
    cases truth with
    | true => exact (he body scope).next fun _ => ih
    | false => exact relates_pure rfl

theorem tracks_result (value : Option Node) :
    Tracks r (Option.map (Operand.renumber r.number)) (result eval scope value)
      (result eval scope (value.map (Node.renumber r.number))) := by
  cases value with
  | none => exact relates_stop _
  | some node =>
    refine (he node scope).next fun result => ?_
    cases result with
    | none => exact relates_raise _
    | some operand => exact relates_stop (.returned operand)

omit he in
theorem tracks_parameterName (parameter : Node) :
    Tracks r id (parameterName parameter) (parameterName (parameter.renumber r.number)) := by
  rw [parameterName, parameterName, Node.children_renumber]
  cases parameter.children with
  | nil => exact relates_raise _
  | cons label rest => exact tracks_nameOf label

theorem tracks_bindParameters (inner : ScopeId) (name : String) (parameters arguments : List Node) :
    Tracks r id (bindParameters eval scope inner name parameters arguments)
      (bindParameters eval scope inner name (parameters.map (Node.renumber r.number))
        (arguments.map (Node.renumber r.number))) := by
  induction parameters generalizing arguments with
  | nil => exact relates_pure rfl
  | cons parameter parameters ih =>
    cases arguments with
    | nil => exact relates_pure rfl
    | cons argument arguments =>
      refine (tracks_parameterName parameter).next fun label => ?_
      refine (he argument scope).next fun result => ?_
      cases result with
      | none => exact relates_raise _
      | some operand =>
        dsimp only [Option.map_some]
        rw [Node.parameterType?_renumber, Operand.type_renumber]
        refine relates_unless Iff.rfl ((tracks_read operand).next fun value => ?_)
        exact (tracks_declare inner label operand.type value false).next fun _ => ih arguments

omit he in
theorem tracks_returnedBy {body body' : Evaluation Unit} (hbody : Tracks r id body body') :
    Tracks r (Option.map (Operand.renumber r.number)) (returnedBy body) (returnedBy body') := by
  have hended : Tracks r (Option.map (Operand.renumber r.number))
      (body >>= fun _ => pure none) (body' >>= fun _ => pure none) :=
    hbody.next fun _ => relates_pure rfl
  refine hended.recover fun reason => ?_
  cases reason with
  | returned operand => exact relates_pure rfl
  | fault cause => exact relates_stop (.fault cause)
  | tooDeep => exact relates_stop .tooDeep
  | unfinished => exact relates_stop .unfinished

omit he in
theorem tracks_outcome (name : String) (type : Option TypeName) (returned : Option Operand) :
    Tracks r (Operand.renumber r.number) (outcome name type returned)
      (outcome name type (returned.map (Operand.renumber r.number))) := by
  cases type with
  | none => exact relates_pure rfl
  | some type =>
    cases returned with
    | none => exact relates_raise _
    | some operand =>
      exact relates_unless (by rw [Operand.type_renumber]) (relates_pure rfl)

theorem tracks_call (name : String) (arguments : List Node) :
    Tracks r (Operand.renumber r.number) (call eval scope name arguments)
      (call eval scope name (arguments.map (Node.renumber r.number))) := by
  refine (tracks_resolve scope name).next fun found => ?_
  obtain ⟨owner, row⟩ := found
  obtain ⟨rowName, type, value, shift, isFunction⟩ := row
  cases isFunction with
  | false => exact relates_raise _
  | true =>
    cases value with
    | function f =>
      refine relates_unless ?_ ((tracks_enclose scope).next fun inner => ?_)
      · rw [Function.parameters_renumber, List.length_map, List.length_map]
      rw [Function.parameters_renumber, Function.body?_renumber]
      refine (tracks_bindParameters he scope inner name f.parameters arguments).next fun _ => ?_
      cases f.body? with
      | none => exact relates_raise _
      | some body =>
        have hbody : Tracks r id (eval body inner >>= fun _ => pure ())
            (eval (body.renumber r.number) inner >>= fun _ => pure ()) :=
          (he body inner).next fun _ => relates_pure rfl
        exact (tracks_returnedBy hbody).next fun returned => tracks_outcome name f.result returned
    | _ => exact relates_raise _

end Parts

section Inventory

variable {number : Nat → Nat}

theorem inventory?_renumber (number : Nat → Nat) (forest : Forest) (scope : ScopeId) :
    inventory? (forest.renumber number) scope =
      (inventory? forest scope).map (List.map (Value.renumber number)) := by
  rw [inventory?, inventory?, Forest.resolve_renumber]
  cases forest.resolve scope "inventory" with
  | error cause => rfl
  | ok found =>
    obtain ⟨owner, row⟩ := found
    by_cases h : row.type = .array <;>
      simp [Except.map, Row.renumber, h]

theorem withInventory?_renumber (number : Nat → Nat) (forest : Forest) (scope : ScopeId)
    (items : List Value) :
    withInventory? (forest.renumber number) scope (items.map (Value.renumber number)) =
      (withInventory? forest scope items).map (Forest.renumber number) := by
  have hassign := Forest.assign_renumber number forest scope "inventory" .array (.array items)
  rw [Value.renumber, Value.renumberItems_eq_map] at hassign
  rw [withInventory?, withInventory?, hassign]
  cases forest.assign scope "inventory" .array (.array items) <;> rfl

theorem numberOr_renumber (number : Nat → Nat) (forest : Forest) (scope : ScopeId) (name : String)
    (other : Value) :
    numberOr (forest.renumber number) scope name (other.renumber number) =
      (numberOr forest scope name other).renumber number := by
  rw [numberOr, numberOr, Forest.resolve_renumber]
  cases forest.resolve scope name with
  | error cause => rfl
  | ok found =>
    obtain ⟨owner, row⟩ := found
    by_cases h : row.type = .number <;> simp [Except.map, Row.renumber, h]

theorem withoutPotion?_renumber (hnumber : Function.Injective number) (items : List Value) :
    withoutPotion? (items.map (Value.renumber number)) =
      (withoutPotion? items).map (List.map (Value.renumber number)) := by
  have hpotion : (fun item : Value => item.same (.text "potion")) ∘ Value.renumber number =
      fun item => item.same (.text "potion") :=
    funext fun item => Value.same_renumber hnumber item (.text "potion")
  rw [withoutPotion?, withoutPotion?, List.any_map, List.eraseP_map, hpotion]
  split <;> rfl

theorem gathered_renumber (number : Nat → Nat) (forest : Forest) (scope : ScopeId) (item : Value) :
    ((inventory? (forest.renumber number) scope).bind fun items =>
        withInventory? (forest.renumber number) scope (items ++ [item.renumber number])) =
      ((inventory? forest scope).bind fun items =>
        withInventory? forest scope (items ++ [item])).map (Forest.renumber number) := by
  rw [inventory?_renumber]
  cases inventory? forest scope with
  | none => rfl
  | some items =>
    have hitems := withInventory?_renumber number forest scope (items ++ [item])
    rw [List.map_append] at hitems
    exact hitems

theorem drunk_renumber (hnumber : Function.Injective number) (forest : Forest) (scope : ScopeId) :
    ((inventory? (forest.renumber number) scope).bind fun items =>
        (withoutPotion? items).bind (withInventory? (forest.renumber number) scope)) =
      ((inventory? forest scope).bind fun items =>
        (withoutPotion? items).bind (withInventory? forest scope)).map
          (Forest.renumber number) := by
  rw [inventory?_renumber]
  cases inventory? forest scope with
  | none => rfl
  | some items =>
    simp only [Option.map_some, Option.bind_some, withoutPotion?_renumber hnumber]
    cases withoutPotion? items with
    | none => rfl
    | some left => exact withInventory?_renumber number forest scope left

end Inventory

section Actions

variable {eval : Evaluator} (he : TracksOn r eval) (scope : ScopeId)

theorem tracks_waitFor (duration : Value) :
    Tracks r id (waitFor duration) (waitFor (duration.renumber r.number)) := by
  cases duration with
  | number seconds =>
    dsimp only [Value.renumber, waitFor]
    split
    · exact relates_raise _
    split
    · exact relates_raise _
    · exact tracks_emit _
  | boolean value => exact tracks_emit _
  | _ => exact relates_raise _

include he in
theorem tracks_sayAction (arguments : List Node) :
    Tracks r id (sayAction eval scope arguments)
      (sayAction eval scope (arguments.map (Node.renumber r.number))) := by
  rcases arguments with _ | ⟨argument, _ | ⟨second, rest⟩⟩
  · exact relates_raise _
  · refine (he argument scope).next fun result => (tracks_valueOf result).next fun value => ?_
    exact (tracks_display value).next fun shown => tracks_say shown
  · exact relates_raise _

include he in
theorem tracks_waitAction (arguments : List Node) :
    Tracks r id (waitAction eval scope arguments)
      (waitAction eval scope (arguments.map (Node.renumber r.number))) := by
  rcases arguments with _ | ⟨argument, _ | ⟨second, rest⟩⟩
  · exact relates_raise _
  · refine (he argument scope).next fun result => (tracks_typeOf result).next fun type => ?_
    refine relates_unless Iff.rfl ((tracks_valueOf result).next fun value => ?_)
    exact tracks_waitFor value
  · exact relates_raise _

include he in
theorem tracks_moveAction (arguments : List Node) :
    Tracks r id (moveAction eval scope arguments)
      (moveAction eval scope (arguments.map (Node.renumber r.number))) := by
  rcases arguments with _ | ⟨argument, _ | ⟨second, rest⟩⟩
  · exact relates_raise _
  · refine (he argument scope).next fun result => (tracks_typeOf result).next fun type => ?_
    refine relates_unless Iff.rfl ((tracks_valueOf result).next fun value => ?_)
    exact (tracks_display value).next fun shown => tracks_say _
  · exact relates_raise _

theorem tracks_strike (name : String) (points : Value) {lead lead' : Evaluation String}
    (hlead : Tracks r id lead lead') :
    Tracks r id (strike scope name points lead)
      (strike scope name (points.renumber r.number) lead') := by
  refine (tracks_assign scope name .number points).next fun _ => hlead.next fun lead => ?_
  refine (tracks_display points).next fun shown => (tracks_say _).next fun _ => ?_
  refine (relates_order .atMost points (.number 0)).next fun beaten => ?_
  cases beaten with
  | true => exact tracks_say _
  | false => exact relates_pure rfl

theorem tracks_subtract (points loss : Value) :
    Tracks r (Value.renumber r.number)
      (ofExcept .value (Value.arithmetic .subtract points loss))
      (ofExcept .value
        (Value.arithmetic .subtract (points.renumber r.number) (loss.renumber r.number))) :=
  relates_ofExcept _ (Value.arithmetic_renumber r.number .subtract points loss)

include he in
theorem tracks_attackAction (arguments : List Node) :
    Tracks r id (attackAction eval scope arguments)
      (attackAction eval scope (arguments.map (Node.renumber r.number))) := by
  rcases arguments with _ | ⟨target, _ | ⟨damage, _ | ⟨third, rest⟩⟩⟩
  · refine tracks_forest.next fun forest => ?_
    rw [Forest.resolve_renumber]
    cases forest.resolve scope "enemy_hp" with
    | error cause => exact relates_raise _
    | ok found =>
      obtain ⟨owner, enemy⟩ := found
      refine relates_unless Iff.rfl ?_
      refine (tracks_subtract enemy.value (.number 1)).next fun points => ?_
      exact tracks_strike scope "enemy_hp" points (relates_pure rfl)
  · cases target with
    | identifier id name =>
      refine (he (.identifier id name) scope).next fun target => ?_
      refine (tracks_typeOf target).next fun type => relates_unless Iff.rfl ?_
      refine (tracks_valueOf target).next fun value => ?_
      refine (tracks_subtract value (.number 1)).next fun points => ?_
      exact tracks_strike scope name points (relates_pure rfl)
    | _ => exact relates_raise _
  · cases target with
    | identifier id name =>
      refine (he (.identifier id name) scope).next fun target => ?_
      refine (he damage scope).next fun damage => ?_
      refine (tracks_typeOf target).next fun type => relates_unless Iff.rfl ?_
      refine (tracks_typeOf damage).next fun type => relates_unless Iff.rfl ?_
      refine (tracks_valueOf target).next fun value => (tracks_valueOf damage).next fun loss => ?_
      refine (tracks_subtract value loss).next fun points => ?_
      refine tracks_strike scope name points ?_
      refine (tracks_valueOf damage).next fun loss => ?_
      exact (tracks_display loss).next fun shown => relates_pure rfl
    | _ => exact relates_raise _
  · cases target <;> exact relates_raise _

theorem tracks_replace (changed : Forest) :
    Tracks r id (change fun world => { world with forest := changed })
      (change fun world => { world with forest := changed.renumber r.number }) :=
  tracks_changeForest (fun _ => changed) (fun _ => changed.renumber r.number) fun _ => rfl

include he in
theorem tracks_gatheredItem (argument : Node) :
    Tracks r (Value.renumber r.number) (gatheredItem eval scope argument)
      (gatheredItem eval scope (argument.renumber r.number)) := by
  have hevaluated : Tracks r (Value.renumber r.number)
      (do
        let result ← eval argument scope
        if (← typeOf result) = .text then valueOf result
        else return .text (← display (← valueOf result)))
      (do
        let result ← eval (argument.renumber r.number) scope
        if (← typeOf result) = .text then valueOf result
        else return .text (← display (← valueOf result))) := by
    refine (he argument scope).next fun result => (tracks_typeOf result).next fun type => ?_
    by_cases htext : type = .text
    · rw [if_pos htext, id_eq, if_pos htext]
      exact tracks_valueOf result
    · rw [if_neg htext, id_eq, if_neg htext]
      refine (tracks_valueOf result).next fun value => ?_
      exact (tracks_display value).next fun shown => relates_pure rfl
  cases argument with
  | identifier id name => exact relates_pure rfl
  | _ => exact hevaluated

include he in
theorem tracks_gatherAction (arguments : List Node) :
    Tracks r id (gatherAction eval scope arguments)
      (gatherAction eval scope (arguments.map (Node.renumber r.number))) := by
  rcases arguments with _ | ⟨argument, _ | ⟨second, rest⟩⟩
  · exact relates_raise _
  · refine (tracks_gatheredItem he scope argument).next fun item => ?_
    refine tracks_forest.next fun forest => ?_
    rw [gathered_renumber]
    cases (inventory? forest scope).bind fun items =>
        withInventory? forest scope (items ++ [item]) with
    | none => exact (tracks_display item).next fun shown => tracks_say _
    | some changed =>
      refine (tracks_replace changed).next fun _ => ?_
      exact (tracks_display item).next fun shown => tracks_say _
  · exact relates_raise _

theorem tracks_usePotion : Tracks r id (usePotion scope) (usePotion scope) := by
  refine tracks_forest.next fun forest => ?_
  rw [Forest.resolve_renumber]
  cases forest.resolve scope "health" with
  | error cause => exact relates_raise _
  | ok found =>
    obtain ⟨owner, health⟩ := found
    refine relates_unless Iff.rfl (tracks_forest.next fun forest => ?_)
    have hheal := numberOr_renumber r.number forest scope "potion_heal" (.number 50)
    rw [Value.renumber] at hheal
    rw [hheal]
    refine (relates_ofExcept _ (Value.arithmetic_renumber ..)).next fun total => ?_
    refine tracks_forest.next fun forest => ?_
    rw [numberOr_renumber]
    refine (relates_order .less _ total).next fun above => ?_
    have hpoints : (if above = true then
          (numberOr forest scope "max_health" total).renumber r.number
          else total.renumber r.number) =
        (if above = true then numberOr forest scope "max_health" total else total).renumber
          r.number := by
      cases above <;> rfl
    dsimp only [id_eq]
    rw [hpoints]
    refine (tracks_assign scope "health" .number _).next fun _ => ?_
    refine tracks_forest.next fun forest => ?_
    rw [drunk_renumber r.injective]
    cases (inventory? forest scope).bind fun items =>
        (withoutPotion? items).bind (withInventory? forest scope) with
    | none => exact (tracks_display _).next fun shown => tracks_say _
    | some changed =>
      refine (tracks_replace changed).next fun _ => ?_
      exact (tracks_display _).next fun shown => tracks_say _

include he in
theorem tracks_useAction (arguments : List Node) :
    Tracks r id (useAction eval scope arguments)
      (useAction eval scope (arguments.map (Node.renumber r.number))) := by
  rcases arguments with _ | ⟨argument, _ | ⟨second, rest⟩⟩
  · exact relates_raise _
  · have hused (item : Value) : Tracks r id
        (do
          let shown ← display item
          if shown = "potion" then usePotion scope else say ("Usando " ++ shown))
        (do
          let shown ← display (item.renumber r.number)
          if shown = "potion" then usePotion scope else say ("Usando " ++ shown)) := by
      refine (tracks_display item).next fun shown => ?_
      by_cases hpotion : shown = "potion"
      · rw [if_pos hpotion, id_eq, if_pos hpotion]
        exact tracks_usePotion scope
      · rw [if_neg hpotion, id_eq, if_neg hpotion]
        exact tracks_say _
    have hevaluated : Tracks r id
        (eval argument scope >>= fun result => valueOf result >>= fun item => do
          let shown ← display item
          if shown = "potion" then usePotion scope else say ("Usando " ++ shown))
        (eval (argument.renumber r.number) scope >>= fun result => valueOf result >>= fun item => do
          let shown ← display item
          if shown = "potion" then usePotion scope else say ("Usando " ++ shown)) :=
      (he argument scope).next fun result => (tracks_valueOf result).next fun item => hused item
    cases argument with
    | identifier id name => exact hused (.text name)
    | _ => exact hevaluated
  · exact relates_raise _

include he in
theorem tracks_action (name : ActionName) (arguments : List Node) :
    Tracks r id (action eval scope name arguments)
      (action eval scope name (arguments.map (Node.renumber r.number))) := by
  cases name with
  | say => exact tracks_sayAction he scope arguments
  | wait => exact tracks_waitAction he scope arguments
  | move => exact tracks_moveAction he scope arguments
  | attack => exact tracks_attackAction he scope arguments
  | gather => exact tracks_gatherAction he scope arguments
  | use => exact tracks_useAction he scope arguments
  | other name => exact relates_raise _

end Actions

theorem step_tracksOn {eval : Evaluator} (rounds : Nat) (he : TracksOn r eval) :
    TracksOn r (step rounds eval) := by
  intro node scope
  have handed {x y : Evaluation Operand} (hx : Tracks r (Operand.renumber r.number) x y) :
      Tracks r (Option.map (Operand.renumber r.number))
        (x >>= fun operand => pure (some operand)) (y >>= fun operand => pure (some operand)) :=
    (relates_handed hx).mono fun _ _ => results_iff.1
  have ended {x y : Evaluation Unit} (hx : Tracks r id x y) :
      Tracks r (Option.map (Operand.renumber r.number))
        (x >>= fun _ => pure none) (y >>= fun _ => pure none) :=
    hx.next fun _ => relates_pure rfl
  cases node with
  | blank | skip => exact relates_pure rfl
  | number | boolean | text => exact relates_pure rfl
  | literal id kind value =>
    refine relates_pure ?_
    rw [Option.map_some, Operand.renumber, Value.renumber_ofLiteral]
  | identifier id name =>
    exact (tracks_resolve scope name).next fun found => relates_pure rfl
  | binary id op left right =>
    refine (he left scope).next fun left => (he right scope).next fun right => ?_
    exact handed (relates_binary op (results_iff.2 rfl) (results_iff.2 rfl))
  | unary id op operand =>
    refine (he operand scope).next fun operand => ?_
    exact handed (relates_unary op (results_iff.2 rfl))
  | array id nodes =>
    rw [Node.renumber, Node.renumberAll_eq_map]
    have hnodes : List.Forall₂ (fun node node' => (tracking r).Relates
        (tracking r).results (eval node scope) (eval node' scope)) nodes
        (nodes.map (Node.renumber r.number)) :=
      List.forall₂_map_right_iff.2 (List.forall₂_same.2 fun node _ => he.results scope node)
    refine (relates_elements hnodes).next fun values => relates_pure ?_
    rw [Option.map_some, Operand.renumber, Value.renumber, Value.renumberItems_eq_map]
    rfl
  | access id array index =>
    exact handed (relates_access (he.results scope array) (he.results scope index))
  | length id array => exact handed (relates_length (he.results scope array))
  | call id name arguments =>
    rw [Node.renumber, Node.renumberAll_eq_map]
    exact handed (tracks_call he scope name arguments)
  | assignment id target value => exact ended (tracks_assignment he scope target value)
  | declaration id type label value =>
    rw [Node.renumber, Node.renumberOption_eq_map]
    exact ended (tracks_declaration he scope type label value)
  | function id name type parts =>
    rw [Node.renumber, Node.renumberAll_eq_map]
    exact ended (tracks_declare scope name _ (.function ⟨id, name, type, parts⟩) true)
  | block id nodes =>
    rw [Node.renumber, Node.renumberAll_eq_map]
    exact ended (tracks_commands he scope nodes)
  | conditional id condition positive negative =>
    rw [Node.renumber, Node.renumberOption_eq_map]
    exact tracks_conditional he scope condition positive negative
  | loop id condition body => exact ended (tracks_loop he scope condition body rounds)
  | result id value =>
    rw [Node.renumber, Node.renumberOption_eq_map]
    exact tracks_result he scope value
  | action id name arguments =>
    rw [Node.renumber, Node.renumberAll_eq_map]
    exact ended (tracks_action he scope name arguments)

theorem evaluate_tracksOn (r : Renaming) (rounds depth : Nat) :
    TracksOn r (evaluate rounds depth) := by
  induction depth with
  | zero => exact fun _ _ => relates_stop .tooDeep
  | succ depth ih => exact step_tracksOn rounds ih

end Evaluation

end LevelScript

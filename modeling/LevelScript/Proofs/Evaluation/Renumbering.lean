import LevelScript.Session
import Mathlib.Logic.Function.Basic

set_option autoImplicit false

namespace LevelScript

variable (number : Nat → Nat)

namespace Node

mutual

def renumber (number : Nat → Nat) : Node → Node
  | .blank id => .blank (number id)
  | .number id value => .number (number id) value
  | .boolean id value => .boolean (number id) value
  | .text id value => .text (number id) value
  | .literal id kind value => .literal (number id) kind value
  | .identifier id name => .identifier (number id) name
  | .binary id op left right =>
    .binary (number id) op (left.renumber number) (right.renumber number)
  | .unary id op operand => .unary (number id) op (operand.renumber number)
  | .array id elements => .array (number id) (renumberAll number elements)
  | .access id accessed index =>
    .access (number id) (accessed.renumber number) (index.renumber number)
  | .length id measured => .length (number id) (measured.renumber number)
  | .call id name arguments => .call (number id) name (renumberAll number arguments)
  | .assignment id target value =>
    .assignment (number id) (target.renumber number) (value.renumber number)
  | .declaration id type label value =>
    .declaration (number id) type (label.renumber number) (renumberOption number value)
  | .function id name type parts => .function (number id) name type (renumberAll number parts)
  | .block id commands => .block (number id) (renumberAll number commands)
  | .skip id => .skip (number id)
  | .conditional id condition positive negative =>
    .conditional (number id) (condition.renumber number) (positive.renumber number)
      (renumberOption number negative)
  | .loop id condition body => .loop (number id) (condition.renumber number) (body.renumber number)
  | .result id value => .result (number id) (renumberOption number value)
  | .action id name arguments => .action (number id) name (renumberAll number arguments)

def renumberAll (number : Nat → Nat) : List Node → List Node
  | [] => []
  | node :: nodes => node.renumber number :: renumberAll number nodes

def renumberOption (number : Nat → Nat) : Option Node → Option Node
  | none => none
  | some node => some (node.renumber number)

end

@[simp] theorem renumberAll_eq_map (nodes : List Node) :
    renumberAll number nodes = nodes.map (renumber number) := by
  induction nodes with
  | nil => rfl
  | cons node nodes ih => rw [renumberAll, ih, List.map_cons]

@[simp] theorem renumberOption_eq_map (node : Option Node) :
    renumberOption number node = node.map (renumber number) := by
  cases node <;> rfl

@[simp] theorem kind_renumber (node : Node) : (node.renumber number).kind = node.kind := by
  cases node with
  | literal id kind value => cases kind <;> rfl
  | _ => rfl

@[simp] theorem name?_renumber (node : Node) : (node.renumber number).name? = node.name? := by
  cases node <;> rfl

@[simp] theorem isBlock_renumber (node : Node) : (node.renumber number).isBlock = node.isBlock := by
  cases node <;> rfl

@[simp] theorem parameterType?_renumber (node : Node) :
    (node.renumber number).parameterType? = node.parameterType? := by
  cases node <;> rfl

theorem children_renumber (node : Node) :
    (node.renumber number).children = node.children.map (renumber number) := by
  cases node with
  | declaration id type label value => cases value <;> rfl
  | conditional id condition positive negative => cases negative <;> rfl
  | result id value => cases value <;> rfl
  | _ => simp [renumber, children]

mutual

theorem renumber_same : (node : Node) → node.renumber (fun n => n) = node
  | .blank _ | .number .. | .boolean .. | .text .. | .literal .. | .identifier .. | .skip _ => rfl
  | .binary id op left right => by
    rw [renumber, renumber_same left, renumber_same right]
  | .unary id op operand => by rw [renumber, renumber_same operand]
  | .array id elements => by rw [renumber, renumberAll_same elements]
  | .access id accessed index => by
    rw [renumber, renumber_same accessed, renumber_same index]
  | .length id measured => by rw [renumber, renumber_same measured]
  | .call id name arguments => by rw [renumber, renumberAll_same arguments]
  | .assignment id target value => by
    rw [renumber, renumber_same target, renumber_same value]
  | .declaration id type label value => by
    rw [renumber, renumber_same label, renumberOption_same value]
  | .function id name type parts => by rw [renumber, renumberAll_same parts]
  | .block id commands => by rw [renumber, renumberAll_same commands]
  | .conditional id condition positive negative => by
    rw [renumber, renumber_same condition, renumber_same positive, renumberOption_same negative]
  | .loop id condition body => by rw [renumber, renumber_same condition, renumber_same body]
  | .result id value => by rw [renumber, renumberOption_same value]
  | .action id name arguments => by rw [renumber, renumberAll_same arguments]

theorem renumberAll_same : (nodes : List Node) → renumberAll (fun n => n) nodes = nodes
  | [] => rfl
  | node :: nodes => by rw [renumberAll, renumber_same node, renumberAll_same nodes]

theorem renumberOption_same : (node : Option Node) → renumberOption (fun n => n) node = node
  | none => rfl
  | some node => by rw [renumberOption, renumber_same node]

end

end Node

namespace Function

def renumber (f : Function) : Function :=
  ⟨number f.id, f.name, f.result, f.parts.map (Node.renumber number)⟩

@[simp] theorem parameters_renumber (f : Function) :
    (f.renumber number).parameters = f.parameters.map (Node.renumber number) := by
  simp [renumber, parameters, List.map_tail, List.map_dropLast]

@[simp] theorem body?_renumber (f : Function) :
    (f.renumber number).body? = f.body?.map (Node.renumber number) := by
  simp [renumber, body?]

theorem renumber_same (f : Function) : f.renumber (fun n => n) = f := by
  rw [renumber, ← Node.renumberAll_eq_map, Node.renumberAll_same]

end Function

namespace Value

mutual

def renumber (number : Nat → Nat) : Value → Value
  | .number value => .number value
  | .text value => .text value
  | .boolean value => .boolean value
  | .array items => .array (renumberItems number items)
  | .void => .void
  | .function f => .function (f.renumber number)

def renumberItems (number : Nat → Nat) : List Value → List Value
  | [] => []
  | item :: items => item.renumber number :: renumberItems number items

end

@[simp] theorem renumberItems_eq_map (items : List Value) :
    renumberItems number items = items.map (renumber number) := by
  induction items with
  | nil => rfl
  | cons item items ih => rw [renumberItems, ih, List.map_cons]

mutual

theorem renumber_same : (value : Value) → value.renumber (fun n => n) = value
  | .number _ | .text _ | .boolean _ | .void => rfl
  | .array items => congrArg Value.array (renumberItems_same items)
  | .function f => congrArg Value.function f.renumber_same

theorem renumberItems_same : (items : List Value) → renumberItems (fun n => n) items = items
  | [] => rfl
  | item :: items => by rw [renumberItems, renumber_same item, renumberItems_same items]

end

mutual

@[simp] theorem renumber_ofLiteral : (value : Literal) →
    (ofLiteral value).renumber number = ofLiteral value
  | .number _ | .text _ | .boolean _ | .void => rfl
  | .array items => congrArg Value.array (renumberItems_ofLiterals items)

theorem renumberItems_ofLiterals : (items : List Literal) →
    renumberItems number (ofLiterals items) = ofLiterals items
  | [] => rfl
  | item :: items => by
    rw [ofLiterals, renumberItems, renumber_ofLiteral item, renumberItems_ofLiterals items]

end

@[simp] theorem kind_renumber (value : Value) : (value.renumber number).kind = value.kind := by
  cases value <;> rfl

@[simp] theorem integer?_renumber (value : Value) :
    (value.renumber number).integer? = value.integer? := by
  cases value <;> rfl

@[simp] theorem truth_renumber (value : Value) : (value.renumber number).truth = value.truth := by
  cases value with
  | array items => cases items <;> rfl
  | _ => rfl

@[simp] theorem elementType_renumber (value : Value) :
    (value.renumber number).elementType = value.elementType := by
  cases value <;> rfl

@[simp] theorem items?_renumber (value : Value) :
    (value.renumber number).items? = value.items?.map (List.map (renumber number)) := by
  cases value with
  | text s => simp [renumber, items?, Function.comp_def]
  | array items => simp [renumber, items?]
  | _ => rfl

theorem initial?_renumber (type : TypeName) :
    (initial? type).map (renumber number) = initial? type := by
  cases type <;> rfl

section Same

variable {number}

mutual

theorem same_renumber (hnumber : Function.Injective number) : (a b : Value) →
    (a.renumber number).same (b.renumber number) = a.same b
  | .array xs, b => by
    cases b with
    | array ys => exact sameItems_renumber hnumber xs ys
    | _ => rfl
  | .function f, b => by
    cases b with
    | function g => simp [renumber, same, Function.renumber, hnumber.eq_iff]
    | _ => rfl
  | .number _, b | .text _, b | .boolean _, b | .void, b => by cases b <;> rfl

theorem sameItems_renumber (hnumber : Function.Injective number) : (xs ys : List Value) →
    sameItems (renumberItems number xs) (renumberItems number ys) = sameItems xs ys
  | [], ys => by cases ys <;> rfl
  | x :: xs, [] => rfl
  | x :: xs, y :: ys => by
    rw [renumberItems, renumberItems, sameItems, sameItems, same_renumber hnumber x y,
      sameItems_renumber hnumber xs ys]

end

mutual

theorem order_renumber (hnumber : Function.Injective number) (op : Order) : (a b : Value) →
    order op (a.renumber number) (b.renumber number) = order op a b
  | .array xs, b => by
    cases b with
    | array ys => exact orderItems_renumber hnumber op xs ys
    | _ => rfl
  | .number _, b | .text _, b | .boolean _, b | .void, b | .function _, b => by cases b <;> rfl

theorem orderItems_renumber (hnumber : Function.Injective number) (op : Order) :
    (xs ys : List Value) →
    orderItems op (renumberItems number xs) (renumberItems number ys) = orderItems op xs ys
  | [], ys => by cases ys <;> simp [renumberItems, orderItems]
  | x :: xs, [] => by simp [renumberItems, orderItems]
  | x :: xs, y :: ys => by
    rw [renumberItems, renumberItems, orderItems, orderItems, same_renumber hnumber x y,
      orderItems_renumber hnumber op xs ys, order_renumber hnumber op x y]

end

end Same

section Written

variable {number} {titles titles' : Titles}

mutual

theorem written_renumber (h : ∀ id, titles'.function (number id) = titles.function id) :
    (value : Value) → (value.renumber number).written titles' = value.written titles
  | .array items => by rw [renumber, written, written, writtenItems_renumber h items]
  | .function f => congrArg Except.ok (h f.id)
  | .number _ | .text _ | .boolean _ | .void => rfl

theorem writtenItems_renumber (h : ∀ id, titles'.function (number id) = titles.function id) :
    (items : List Value) →
      writtenItems titles' (renumberItems number items) = writtenItems titles items
  | [] => rfl
  | item :: items => by
    rw [renumberItems, writtenItems, writtenItems, written_renumber h item,
      writtenItems_renumber h items]

end

theorem display_renumber (h : ∀ id, titles'.function (number id) = titles.function id)
    (value : Value) : (value.renumber number).display titles' = value.display titles := by
  cases value with
  | text s => rfl
  | number | boolean | array | void | function => exact written_renumber h _

end Written

theorem join_renumber (left right : Value) :
    join (left.renumber number) (right.renumber number) =
      (join left right).map (renumber number) := by
  cases left <;> cases right <;> simp [renumber, join, kind, Except.map]

theorem repetitions_renumber (length : Nat) (tooLong : ValueFault) (count : Value) :
    repetitions length tooLong (count.renumber number) = repetitions length tooLong count := by
  rw [repetitions, repetitions, integer?_renumber, kind_renumber]

theorem repeatedText_renumber (s : String) (count : Value) :
    repeatedText s (count.renumber number) = (repeatedText s count).map (renumber number) := by
  rw [repeatedText, repeatedText, repetitions_renumber]
  cases repetitions s.length .textTooLong count <;> rfl

theorem repeatedArray_renumber (items : List Value) (count : Value) :
    repeatedArray (items.map (renumber number)) (count.renumber number) =
      (repeatedArray items count).map (renumber number) := by
  rw [repeatedArray, repeatedArray, repetitions_renumber, List.length_map]
  cases repetitions items.length .noRoom count with
  | error cause => rfl
  | ok times => simp [renumber, bind, Except.bind, pure, Except.pure, Except.map]

theorem repeated_renumber (left right : Value) :
    repeated (left.renumber number) (right.renumber number) =
      (repeated left right).map (renumber number) := by
  have harray (items : List Value) :
      (Value.array items).renumber number = .array (items.map (renumber number)) := by
    rw [renumber, renumberItems_eq_map]
  cases left with
  | text s => exact repeatedText_renumber number s right
  | array items =>
    rw [harray]
    exact repeatedArray_renumber number items right
  | _ =>
    cases right with
    | text s => exact repeatedText_renumber number s _
    | array items =>
      rw [harray]
      exact repeatedArray_renumber number items _
    | _ => rfl

theorem arithmetic_renumber (op : Arithmetic) (left right : Value) :
    arithmetic op (left.renumber number) (right.renumber number) =
      (arithmetic op left right).map (renumber number) := by
  unfold arithmetic
  rw [integer?_renumber, integer?_renumber, join_renumber, repeated_renumber, kind_renumber,
    kind_renumber]
  split
  · split <;> rfl
  · cases op <;> rfl

theorem negated_renumber (operand : Value) :
    (operand.renumber number).negated = operand.negated.map (renumber number) := by
  rw [negated, negated, integer?_renumber, kind_renumber]
  cases operand.integer? <;> rfl

theorem length_renumber (value : Value) : (value.renumber number).length = value.length := by
  rw [length, length, items?_renumber, kind_renumber]
  cases value.items? <;> simp

theorem item_renumber (value : Value) (index : Nat) :
    (value.renumber number).item index = (value.item index).map (renumber number) := by
  rw [item, item, items?_renumber, kind_renumber]
  cases value.items? with
  | none => rfl
  | some items =>
    simp only [Option.map_some, List.getElem?_map]
    cases items[index]? <;> rfl

end Value

theorem Connective.choose_renumber (op : Connective) (left right : Value) :
    op.choose (left.renumber number) (right.renumber number) =
      (op.choose left right).renumber number := by
  cases op <;> simp only [choose, Value.truth_renumber] <;> split <;> rfl

theorem BinaryOp.apply_renumber {number : Nat → Nat} (hnumber : Function.Injective number)
    (op : BinaryOp) (leftType rightType : TypeName) (left right : Value) :
    op.apply leftType (left.renumber number) rightType (right.renumber number) =
      (op.apply leftType left rightType right).map (Prod.map id (Value.renumber number)) := by
  have hzero : (right.renumber number).same (.number 0) = right.same (.number 0) :=
    Value.same_renumber hnumber right (.number 0)
  cases op with
  | arithmetic op =>
    simp only [apply, hzero, Value.arithmetic_renumber]
    split
    · rfl
    split
    · rfl
    · cases Value.arithmetic op left right <;> rfl
  | equal | notEqual =>
    simp only [apply, Value.same_renumber hnumber]
    split <;> rfl
  | order relation =>
    simp only [apply, Value.order_renumber hnumber]
    split
    · rfl
    · cases Value.order relation left right <;> rfl
  | connective op =>
    simp only [apply, Connective.choose_renumber]
    split <;> rfl
  | other spelling => rfl

def Row.renumber (row : Row) : Row :=
  { row with value := row.value.renumber number }

namespace Scope

def renumber (scope : Scope) : Scope :=
  { scope with rows := scope.rows.map (Row.renumber number) }

@[simp] theorem row?_renumber (scope : Scope) (name : String) :
    (scope.renumber number).row? name = (scope.row? name).map (Row.renumber number) := by
  rw [row?, row?, renumber, List.find?_map]
  rfl

theorem startValue_renumber (type : TypeName) (value : Value) (isFunction : Bool) :
    startValue type (value.renumber number) isFunction =
      (startValue type value isFunction).map (Value.renumber number) := by
  cases value with
  | void =>
    cases isFunction with
    | true => rfl
    | false =>
      have hinitial := Value.initial?_renumber number type
      simp only [Value.renumber, startValue]
      cases h : Value.initial? type with
      | none => rfl
      | some value =>
        rw [h] at hinitial
        exact congrArg Except.ok (Option.some.inj hinitial).symm
  | _ => rfl

theorem newRow_renumber (scope : Scope) (name : String) (type : TypeName) (value : Value)
    (isFunction : Bool) :
    (scope.renumber number).newRow name type (value.renumber number) isFunction =
      (scope.newRow name type value isFunction).map (Row.renumber number) := by
  rw [newRow, newRow, row?_renumber, startValue_renumber]
  cases scope.row? name with
  | some row => rfl
  | none => cases startValue type value isFunction <;> rfl

theorem add_renumber (scope : Scope) (row : Row) :
    (scope.add row).renumber number = (scope.renumber number).add (row.renumber number) := by
  simp [renumber, add]

theorem write_renumber (scope : Scope) (name : String) (value : Value) :
    (scope.write name value).renumber number =
      (scope.renumber number).write name (value.renumber number) := by
  simp only [renumber, write, List.map_map, Scope.mk.injEq, true_and, and_true]
  refine List.map_congr_left fun row _ => ?_
  by_cases h : row.name = name <;> simp [Row.renumber, h]

end Scope

namespace Forest

def renumber (forest : Forest) : Forest :=
  ⟨forest.scopes.map (Scope.renumber number)⟩

@[simp] theorem scope?_renumber (forest : Forest) (id : ScopeId) :
    (forest.renumber number).scope? id = (forest.scope? id).map (Scope.renumber number) :=
  Array.getElem?_map

@[simp] theorem chain_renumber (forest : Forest) (id : ScopeId) :
    (forest.renumber number).chain id = forest.chain id := by
  rw [chain, chain, scope?_renumber]
  cases forest.scope? id <;> rfl

theorem rows_renumber (forest : Forest) (id : ScopeId) :
    (forest.renumber number).rows id = (forest.rows id).map (Row.renumber number) := by
  rw [rows, rows, scope?_renumber]
  cases forest.scope? id <;> rfl

@[simp] theorem row?_renumber (forest : Forest) (id : ScopeId) (name : String) :
    (forest.renumber number).row? id name = (forest.row? id name).map (Row.renumber number) := by
  rw [row?, row?, scope?_renumber]
  cases forest.scope? id with
  | none => rfl
  | some scope => exact Scope.row?_renumber number scope name

theorem nearest?_renumber (forest : Forest) (name : String) (ids : List ScopeId) :
    (forest.renumber number).nearest? name ids =
      (forest.nearest? name ids).map (Prod.map id (Row.renumber number)) := by
  induction ids with
  | nil => rfl
  | cons id ids ih =>
    rw [nearest?, nearest?, row?_renumber, ih]
    cases forest.row? id name <;> rfl

theorem resolve_renumber (forest : Forest) (scope : ScopeId) (name : String) :
    (forest.renumber number).resolve scope name =
      (forest.resolve scope name).map (Prod.map id (Row.renumber number)) := by
  rw [resolve, resolve, chain_renumber, nearest?_renumber]
  cases forest.nearest? name (forest.chain scope) <;> rfl

theorem target_renumber (forest : Forest) (scope : ScopeId) (name : String) (type : TypeName) :
    (forest.renumber number).target scope name type = forest.target scope name type := by
  rw [target, target, resolve_renumber]
  cases forest.resolve scope name <;> rfl

theorem modify_renumber (forest : Forest) (id : ScopeId) {change changed : Scope → Scope}
    (h : ∀ scope, (change scope).renumber number = changed (scope.renumber number)) :
    renumber number ⟨forest.scopes.modify id change⟩ =
      ⟨(forest.renumber number).scopes.modify id changed⟩ := by
  refine congrArg Forest.mk (Array.ext_getElem? fun i => ?_)
  simp only [renumber, Array.getElem?_map, Array.getElem?_modify]
  split
  · cases forest.scopes[i]? with
    | none => rfl
    | some scope => exact congrArg some (h scope)
  · rfl

theorem write_renumber (forest : Forest) (owner : ScopeId) (name : String) (value : Value) :
    (forest.write owner name value).renumber number =
      (forest.renumber number).write owner name (value.renumber number) :=
  forest.modify_renumber number owner fun scope => scope.write_renumber number name value

theorem assign_renumber (forest : Forest) (scope : ScopeId) (name : String) (type : TypeName)
    (value : Value) :
    (forest.renumber number).assign scope name type (value.renumber number) =
      (forest.assign scope name type value).map (renumber number) := by
  rw [assign, assign, target_renumber]
  cases forest.target scope name type with
  | error cause => rfl
  | ok owner => exact congrArg Except.ok (write_renumber number forest owner name value).symm

theorem add_renumber (forest : Forest) (id : ScopeId) (row : Row) :
    (forest.add id row).renumber number = (forest.renumber number).add id (row.renumber number) :=
  forest.modify_renumber number id fun scope => scope.add_renumber number row

theorem newRow_renumber (forest : Forest) (id : ScopeId) (name : String) (type : TypeName)
    (value : Value) (isFunction : Bool) :
    (forest.renumber number).newRow id name type (value.renumber number) isFunction =
      (forest.newRow id name type value isFunction).map (Row.renumber number) := by
  rw [newRow, newRow, scope?_renumber]
  cases forest.scope? id with
  | none => rfl
  | some scope => exact Scope.newRow_renumber number scope name type value isFunction

theorem grow_renumber (forest : Forest) (parent : Option ScopeId) :
    (forest.renumber number).grow parent =
      ((forest.grow parent).1, (forest.grow parent).2.renumber number) := by
  have hchain : (forest.renumber number).chain = forest.chain :=
    funext fun id => chain_renumber number forest id
  rw [grow, grow, hchain]
  simp [renumber, Scope.renumber, Scope.empty]

theorem currentValue_renumber (forest : Forest) (owner : ScopeId) (row : Row) :
    (forest.renumber number).currentValue owner (row.renumber number) =
      (forest.currentValue owner row).renumber number := by
  have hrow := row?_renumber number forest owner row.name
  rw [currentValue, currentValue]
  change (((forest.renumber number).row? owner row.name).map Row.value).getD _ = _
  rw [hrow]
  cases forest.row? owner row.name <;> rfl

end Forest

namespace Operand

def renumber : Operand → Operand
  | .temporary type value => .temporary type (value.renumber number)
  | .variable owner row => .variable owner (row.renumber number)

@[simp] theorem type_renumber (operand : Operand) :
    (operand.renumber number).type = operand.type := by
  cases operand <;> rfl

theorem value_renumber (forest : Forest) (operand : Operand) :
    (operand.renumber number).value (forest.renumber number) =
      (operand.value forest).renumber number := by
  rcases operand with ⟨type, value⟩ | ⟨owner, row⟩
  · rfl
  · exact Forest.currentValue_renumber number forest owner row

end Operand

def Stop.renumber : Stop → Stop
  | .returned operand => .returned (operand.renumber number)
  | .fault cause => .fault cause
  | .tooDeep => .tooDeep
  | .unfinished => .unfinished

end LevelScript

import LevelScript.Evaluation.Node
import LevelScript.Proofs.Parser.Shape
import Mathlib.Data.List.Nodup

set_option autoImplicit false

namespace LevelScript

/-- The values that a variable of a type is there to hold. -/
def TypeName.holds : TypeName → Value → Bool
  | .number, .number _ => true
  | .text, .text _ => true
  | .boolean, .boolean _ => true
  | .array, .array _ => true
  | _, _ => false

/-- A value that can come up: functions and missing values only if there are functions. -/
inductive Value.Allowed (functions : Bool) : Value → Prop where
  | number {value : Int} : Allowed functions (.number value)
  | text {value : String} : Allowed functions (.text value)
  | boolean {value : Bool} : Allowed functions (.boolean value)
  | array {items : List Value} :
      (∀ item ∈ items, item.Allowed functions) → Allowed functions (.array items)
  | void : functions = true → Allowed functions .void
  | function {declared : Function} : functions = true → Allowed functions (.function declared)

/-- The values that an operand of a type can have. -/
inductive Value.Fits (functions : Bool) : TypeName → Value → Prop where
  | number {value : Int} : Fits functions .number (.number value)
  | text {value : String} : Fits functions .text (.text value)
  | boolean {value : Bool} : Fits functions .boolean (.boolean value)
  | array {items : List Value} :
      (∀ item ∈ items, item.Allowed functions) → Fits functions .array (.array items)
  | void {type : TypeName} :
      functions = true → type ∈ [.text, .void] → Fits functions type .void
  | function {type : TypeName} {declared : Function} :
      functions = true → Fits functions type (.function declared)

namespace Value

variable {functions : Bool}

theorem Fits.allowed {type : TypeName} {value : Value} (h : value.Fits functions type) :
    value.Allowed functions := by
  cases h with
  | number => exact .number
  | text => exact .text
  | boolean => exact .boolean
  | array hitems => exact .array hitems
  | void hf _ => exact .void hf
  | function hf => exact .function hf

theorem Allowed.fits_elementType {value : Value} (h : value.Allowed functions) :
    value.Fits functions value.elementType := by
  cases h with
  | number => exact .number
  | text => exact .text
  | boolean => exact .boolean
  | array hitems => exact .array hitems
  | void hf => exact .void hf (by decide)
  | function hf => exact .function hf

theorem arithmetic_number {op : Arithmetic} {left right value : Value}
    (hl : left.Fits functions .number) (hr : right.Fits functions .number)
    (h : arithmetic op left right = .ok value) : ∃ n, value = .number n := by
  cases hl with
  | number =>
    cases hr with
    | number =>
      simp only [arithmetic, integer?] at h
      split at h
      · cases h
      · cases h
        exact ⟨_, rfl⟩
    | void _ htype => exact absurd htype (by decide)
    | function => cases op <;> cases h
  | void _ htype => exact absurd htype (by decide)
  | function =>
    cases hr with
    | number => cases op <;> cases h
    | void _ htype => exact absurd htype (by decide)
    | function => cases op <;> cases h

theorem negated_number {operand value : Value} (h : operand.negated = .ok value) :
    ∃ n, value = .number n := by
  rw [negated] at h
  split at h
  · cases h
    exact ⟨_, rfl⟩
  · cases h

theorem item_allowed {array value : Value} {index : Nat} (ha : array.Fits functions .array)
    (h : array.item index = .ok value) : value.Allowed functions := by
  cases ha with
  | @array items hitems =>
    simp only [item, items?] at h
    split at h
    · next found hfound =>
      cases h
      exact hitems _ (List.mem_of_getElem? hfound)
    · cases h
  | void _ htype => exact absurd htype (by decide)
  | function => cases h

theorem initial?_fits {type : TypeName} {value : Value} (ht : type ∈ TypeName.declarable)
    (h : initial? type = some value) : value.Fits functions type := by
  cases type <;> cases h
  · exact .number
  · exact .text
  · exact .boolean
  · exact .array nofun
  · exact absurd ht (by decide)

end Value

/-- The ways in which an operator comes to its result on two values, from their types. -/
inductive BinaryOp.Applies (left right : Value) :
    BinaryOp → TypeName → TypeName → Except Fault (TypeName × Value) → Prop where
  | refused {op : BinaryOp} {leftType rightType : TypeName} (cause : TypeFault) :
      Applies left right op leftType rightType (.error (.type cause))
  | computed {op : Arithmetic} {value : Value} : Value.arithmetic op left right = .ok value →
      Applies left right (.arithmetic op) .number .number (.ok (.number, value))
  | uncomputed {op : Arithmetic} {reason : ValueFault} :
      (op = .divide → right.same (.number 0) = false) →
      Value.arithmetic op left right = .error reason →
      Applies left right (.arithmetic op) .number .number (.error (.value reason))
  | equal {type : TypeName} :
      Applies left right .equal type type (.ok (.boolean, .boolean (left.same right)))
  | notEqual {type : TypeName} :
      Applies left right .notEqual type type (.ok (.boolean, .boolean (!left.same right)))
  | ordered {relation : Order} {type : TypeName} {holds : Bool} :
      Value.order relation left right = .ok holds →
      Applies left right (.order relation) type type (.ok (.boolean, .boolean holds))
  | unordered {relation : Order} {type : TypeName} {reason : ValueFault} :
      Value.order relation left right = .error reason →
      Applies left right (.order relation) type type (.error (.value reason))
  | connective {op : Connective} :
      Applies left right (.connective op) .boolean .boolean (.ok (.boolean, op.choose left right))
  | unknown {spelling : String} {leftType rightType : TypeName} :
      Applies left right (.other spelling) leftType rightType
        (.error (.shape (.unknownOperator spelling)))

theorem BinaryOp.applies (op : BinaryOp) (leftType : TypeName) (left : Value)
    (rightType : TypeName) (right : Value) :
    Applies left right op leftType rightType (op.apply leftType left rightType right) := by
  cases op with
  | arithmetic op =>
    rw [BinaryOp.apply]
    split
    · exact .refused _
    next htypes =>
    obtain ⟨rfl, rfl⟩ : leftType = .number ∧ rightType = .number := by simpa using htypes
    split
    · exact .refused _
    next hdivisor =>
    cases hvalue : Value.arithmetic op left right with
    | ok value => exact .computed hvalue
    | error reason => exact .uncomputed (by simpa using hdivisor) hvalue
  | equal | notEqual =>
    rw [BinaryOp.apply]
    split
    · exact .refused _
    next htypes =>
    obtain rfl : leftType = rightType := by simpa using htypes
    constructor
  | order relation =>
    rw [BinaryOp.apply]
    split
    · exact .refused _
    next htypes =>
    obtain rfl : leftType = rightType := by simpa using htypes
    cases horder : Value.order relation left right with
    | ok holds => exact .ordered horder
    | error reason => exact .unordered horder
  | connective op =>
    rw [BinaryOp.apply]
    split
    · exact .refused _
    next htypes =>
    obtain ⟨rfl, rfl⟩ : leftType = .boolean ∧ rightType = .boolean := by simpa using htypes
    exact .connective
  | other spelling => exact .unknown

theorem BinaryOp.apply_fits {functions : Bool} {op : BinaryOp} {leftType rightType type : TypeName}
    {left right value : Value} (hl : left.Fits functions leftType)
    (hr : right.Fits functions rightType)
    (h : op.apply leftType left rightType right = .ok (type, value)) :
    value.Fits functions type := by
  have happlies := h ▸ op.applies leftType left rightType right
  cases happlies with
  | computed hvalue =>
    obtain ⟨n, rfl⟩ := Value.arithmetic_number hl hr hvalue
    exact .number
  | equal | notEqual | ordered => exact .boolean
  | @connective op => cases op <;> simp only [Connective.choose] <;> split <;> assumption

structure Function.Declared (functions : Bool) (f : Function) : Prop where
  parameters : ∀ node ∈ f.parameters, Sourced functions .parameter node
  body : ∃ node, f.body? = some node ∧ Sourced functions .command node

inductive Row.Typed (functions : Bool) : Row → Prop where
  | held {name : String} {type : TypeName} {value : Value} {shift : Nat} :
      type ∈ TypeName.declarable → value.Fits functions type →
      Typed functions ⟨name, type, value, shift, false⟩
  | function {name : String} {f : Function} {shift : Nat} :
      functions = true → f.Declared functions →
      Typed functions ⟨name, f.result.getD .void, .function f, shift, true⟩

theorem Row.Typed.fits {functions : Bool} {row : Row} (h : row.Typed functions) :
    row.value.Fits functions row.type := by
  cases h with
  | held _ hvalue => exact hvalue
  | function hf _ => exact .function hf

namespace Scope

variable {functions : Bool}

structure Typed (functions : Bool) (scope : Scope) : Prop where
  names : (scope.rows.map Row.name).Nodup
  rows : ∀ row ∈ scope.rows, row.Typed functions

theorem row?_mem {scope : Scope} {name : String} {row : Row} (h : scope.row? name = some row) :
    row ∈ scope.rows ∧ row.name = name :=
  ⟨List.mem_of_find?_eq_some h, by simpa using List.find?_some h⟩

theorem row?_write (scope : Scope) (name other : String) (value : Value) :
    (scope.write name value).row? other =
      (scope.row? other).map fun row =>
        if row.name = name then { row with value := value } else row := by
  rw [row?, write, List.find?_map, row?]
  congr 2
  funext row
  simp only [Function.comp_apply]
  split <;> rfl

theorem row?_add {scope : Scope} {name : String} {row found : Row}
    (h : scope.row? name = some found) : (scope.add row).row? name = some found := by
  rw [row?, add, List.find?_append]
  rw [row?] at h
  rw [h, Option.some_or]

theorem names_write (scope : Scope) (name : String) (value : Value) :
    (scope.write name value).rows.map Row.name = scope.rows.map Row.name := by
  rw [write, List.map_map]
  refine List.map_congr_left fun row _ => ?_
  simp only [Function.comp_apply]
  split <;> rfl

theorem nodup_add {scope : Scope} {row : Row} (h : (scope.rows.map Row.name).Nodup)
    (hnone : scope.row? row.name = none) : ((scope.add row).rows.map Row.name).Nodup := by
  have hfresh : row.name ∉ scope.rows.map Row.name := by
    rintro hmem
    obtain ⟨other, hother, hname⟩ := List.mem_map.1 hmem
    exact absurd hname (by simpa using List.find?_eq_none.1 hnone other hother)
  rw [add, List.map_append]
  exact List.nodup_append.2 ⟨h, List.nodup_singleton _, by
    rintro a ha b hb rfl
    exact hfresh (List.mem_singleton.1 hb ▸ ha)⟩

theorem Typed.write {scope : Scope} {name : String} {row : Row} {value : Value}
    (h : scope.Typed functions) (hrow : scope.row? name = some row)
    (hvariable : row.isFunction = false) (hvalue : value.Fits functions row.type) :
    (scope.write name value).Typed functions := by
  obtain ⟨hmem, hname⟩ := row?_mem hrow
  constructor
  · exact names_write scope name value ▸ h.names
  · intro changed hchanged
    obtain ⟨other, hother, rfl⟩ := List.mem_map.1 hchanged
    split
    · next hsame =>
      -- names are not repeated, so this is the row that was found
      obtain rfl := List.inj_on_of_nodup_map h.names hother hmem (hsame.trans hname.symm)
      cases h.rows _ hmem with
      | held htype _ => exact .held htype hvalue
      | function => cases hvariable
    · exact h.rows other hother

theorem Typed.add {scope : Scope} {row : Row} (h : scope.Typed functions)
    (hnone : scope.row? row.name = none) (hrow : row.Typed functions) :
    (scope.add row).Typed functions := by
  constructor
  · exact nodup_add h.names hnone
  · intro other hother
    rcases List.mem_append.1 hother with hother | hother
    · exact h.rows other hother
    · exact List.mem_singleton.1 hother ▸ hrow

theorem Typed.empty (ancestors : List ScopeId) : (Scope.empty ancestors).Typed functions :=
  ⟨List.nodup_nil, nofun⟩

theorem startValue_void {type : TypeName} {started : Value} (ht : type ∈ TypeName.declarable)
    (h : startValue type .void false = .ok started) : started.Fits functions type := by
  simp only [startValue] at h
  split at h
  · next hinitial =>
    cases h
    exact Value.initial?_fits ht hinitial
  · cases h

theorem startValue_fits {type : TypeName} {value started : Value}
    (ht : type ∈ TypeName.declarable) (hvalue : value.Fits functions type)
    (h : startValue type value false = .ok started) : started.Fits functions type := by
  cases hvalue with
  | void _ _ => exact startValue_void ht h
  | number => cases h; exact .number
  | text => cases h; exact .text
  | boolean => cases h; exact .boolean
  | array hitems => cases h; exact .array hitems
  | function hf => cases h; exact .function hf

end Scope

namespace Forest

variable {functions : Bool}

def Typed (functions : Bool) (forest : Forest) : Prop :=
  ∀ id scope, forest.scope? id = some scope → scope.Typed functions

def Extends (forest later : Forest) : Prop :=
  ∀ id name row, forest.row? id name = some row →
    ∃ found, later.row? id name = some found ∧ found.type = row.type

theorem Extends.refl (forest : Forest) : forest.Extends forest :=
  fun _ _ row h => ⟨row, h, rfl⟩

theorem Extends.trans {first second third : Forest} (h : first.Extends second)
    (h' : second.Extends third) : first.Extends third := by
  intro id name row hrow
  obtain ⟨found, hfound, htype⟩ := h id name row hrow
  obtain ⟨last, hlast, hlastType⟩ := h' id name found hfound
  exact ⟨last, hlast, hlastType.trans htype⟩

theorem row?_eq_some {forest : Forest} {id : ScopeId} {name : String} {row : Row}
    (h : forest.row? id name = some row) :
    ∃ scope, forest.scope? id = some scope ∧ scope.row? name = some row :=
  Option.bind_eq_some_iff.1 h

theorem Typed.row? {forest : Forest} {id : ScopeId} {name : String} {row : Row}
    (h : forest.Typed functions) (hrow : forest.row? id name = some row) :
    row.Typed functions := by
  obtain ⟨scope, hscope, hfound⟩ := row?_eq_some hrow
  exact (h id scope hscope).rows row (Scope.row?_mem hfound).1

theorem row?_name {forest : Forest} {id : ScopeId} {name : String} {row : Row}
    (h : forest.row? id name = some row) : row.name = name := by
  obtain ⟨scope, _, hfound⟩ := row?_eq_some h
  exact (Scope.row?_mem hfound).2

theorem nearest?_row? {forest : Forest} {name : String} {ids : List ScopeId} {owner : ScopeId}
    {row : Row} (h : forest.nearest? name ids = some (owner, row)) :
    forest.row? owner name = some row := by
  induction ids with
  | nil => cases h
  | cons id ids ih =>
    rw [nearest?] at h
    split at h
    · next found hfound =>
      cases h
      exact hfound
    · exact ih h

theorem resolve_row? {forest : Forest} {id owner : ScopeId} {name : String} {row : Row}
    (h : forest.resolve id name = .ok (owner, row)) : forest.row? owner name = some row := by
  rw [resolve] at h
  split at h
  · next hfound =>
    cases h
    exact nearest?_row? hfound
  · cases h

theorem target_row? {forest : Forest} {id owner : ScopeId} {name : String} {type : TypeName}
    (h : forest.target id name type = .ok owner) :
    ∃ row, forest.row? owner name = some row ∧ row.isFunction = false ∧ row.type = type := by
  rw [target] at h
  cases hresolve : forest.resolve id name with
  | error cause => rw [hresolve] at h; cases h
  | ok found =>
    obtain ⟨scope, row⟩ := found
    simp only [hresolve, bind, Except.bind] at h
    split at h
    · cases h
    · next hvariable =>
      split at h
      · cases h
      · next htype =>
        cases h
        exact ⟨row, resolve_row? hresolve, by simpa using hvariable, by simpa using htype⟩

theorem write_scope? (forest : Forest) (owner id : ScopeId) (name : String) (value : Value) :
    (forest.write owner name value).scope? id =
      if owner = id then (forest.scope? id).map fun scope => scope.write name value
      else forest.scope? id :=
  Array.getElem?_modify

theorem add_scope? (forest : Forest) (owner id : ScopeId) (row : Row) :
    (forest.add owner row).scope? id =
      if owner = id then (forest.scope? id).map fun scope => scope.add row
      else forest.scope? id :=
  Array.getElem?_modify

theorem grow_scope? (forest : Forest) (parent : Option ScopeId) (id : ScopeId) :
    (forest.grow parent).2.scope? id =
      if id = forest.scopes.size then some (.empty ((parent.map forest.chain).getD []))
      else forest.scope? id :=
  Array.getElem?_push

theorem Typed.write {forest : Forest} {id owner : ScopeId} {name : String} {type : TypeName}
    {value : Value} (h : forest.Typed functions) (htarget : forest.target id name type = .ok owner)
    (hvalue : value.Fits functions type) : (forest.write owner name value).Typed functions := by
  obtain ⟨row, hrow, hvariable, rfl⟩ := target_row? htarget
  obtain ⟨found, hfound, hlookup⟩ := row?_eq_some hrow
  intro other scope hscope
  rw [write_scope?] at hscope
  split at hscope
  · next hsame =>
    obtain ⟨before, hbefore, rfl⟩ := Option.map_eq_some_iff.1 hscope
    obtain rfl := Option.some.inj (hfound.symm.trans (hsame ▸ hbefore))
    exact (h _ _ hfound).write hlookup hvariable hvalue
  · exact h other scope hscope

theorem extends_write (forest : Forest) (owner : ScopeId) (name : String) (value : Value) :
    forest.Extends (forest.write owner name value) := by
  intro id other row hrow
  obtain ⟨scope, hscope, hlookup⟩ := row?_eq_some hrow
  rw [row?, write_scope?, hscope]
  by_cases howner : owner = id
  · have hwritten := Scope.row?_write scope name other value
    rw [hlookup, Option.map_some] at hwritten
    rw [if_pos howner]
    refine ⟨_, hwritten, ?_⟩
    split <;> rfl
  · rw [if_neg howner]
    exact ⟨row, hlookup, rfl⟩

theorem assign_eq {forest changed : Forest} {id : ScopeId} {name : String} {type : TypeName}
    {value : Value} (h : forest.assign id name type value = .ok changed) :
    ∃ owner, forest.target id name type = .ok owner ∧ changed = forest.write owner name value := by
  simp only [assign, bind, Except.bind] at h
  split at h
  · cases h
  · next owner howner =>
    cases h
    exact ⟨owner, howner, rfl⟩

theorem newRow_eq {forest : Forest} {id : ScopeId} {name : String} {type : TypeName}
    {value : Value} {isFunction : Bool} {row : Row}
    (h : forest.newRow id name type value isFunction = .ok row) :
    ∃ scope started, forest.scope? id = some scope ∧ scope.row? name = none ∧
      Scope.startValue type value isFunction = .ok started ∧
      row = ⟨name, type, started, scope.nextShift, isFunction⟩ := by
  rw [newRow] at h
  split at h
  · cases h
  · next scope hscope =>
    rw [Scope.newRow] at h
    split at h
    · cases h
    · next hnone =>
      simp only [bind, Except.bind] at h
      split at h
      · cases h
      · next started hstarted =>
        cases h
        exact ⟨scope, started, hscope, hnone, hstarted, rfl⟩

theorem Typed.add {forest : Forest} {id : ScopeId} {scope : Scope} {row : Row}
    (h : forest.Typed functions) (hscope : forest.scope? id = some scope)
    (hnone : scope.row? row.name = none) (hrow : row.Typed functions) :
    (forest.add id row).Typed functions := by
  intro other changed hchanged
  rw [add_scope?] at hchanged
  split at hchanged
  · next hsame =>
    obtain ⟨before, hbefore, rfl⟩ := Option.map_eq_some_iff.1 hchanged
    obtain rfl := Option.some.inj (hscope.symm.trans (hsame ▸ hbefore))
    exact (h _ _ hscope).add hnone hrow
  · exact h other changed hchanged

theorem extends_add (forest : Forest) (owner : ScopeId) (row : Row) :
    forest.Extends (forest.add owner row) := by
  intro id name found hfound
  obtain ⟨scope, hscope, hlookup⟩ := row?_eq_some hfound
  refine ⟨found, ?_, rfl⟩
  rw [row?, add_scope?, hscope]
  split
  · exact Scope.row?_add hlookup
  · exact hlookup

theorem Typed.grow {forest : Forest} (h : forest.Typed functions) (parent : Option ScopeId) :
    (forest.grow parent).2.Typed functions := by
  intro id scope hscope
  rw [grow_scope?] at hscope
  split at hscope
  · cases hscope
    exact .empty _
  · exact h id scope hscope

theorem extends_grow (forest : Forest) (parent : Option ScopeId) :
    forest.Extends (forest.grow parent).2 := by
  intro id name row hrow
  obtain ⟨scope, hscope, hlookup⟩ := row?_eq_some hrow
  have hid : id ≠ forest.scopes.size := by
    rintro rfl
    rw [scope?, Array.getElem?_size] at hscope
    cases hscope
  refine ⟨row, ?_, rfl⟩
  rw [row?, grow_scope?, if_neg hid, hscope]
  exact hlookup

end Forest

def Operand.Fits (functions : Bool) (forest : Forest) : Operand → Prop
  | .temporary type value => value.Fits functions type
  | .variable owner row =>
    ∃ found, forest.row? owner row.name = some found ∧ found.type = row.type

namespace Operand

variable {functions : Bool}

theorem Fits.extend {forest later : Forest} {operand : Operand}
    (h : operand.Fits functions forest) (hlater : forest.Extends later) :
    operand.Fits functions later := by
  rcases operand with ⟨type, value⟩ | ⟨owner, row⟩
  · exact h
  · obtain ⟨found, hfound, htype⟩ := h
    obtain ⟨last, hlast, hlastType⟩ := hlater _ _ _ hfound
    exact ⟨last, hlast, hlastType.trans htype⟩

theorem Fits.value {forest : Forest} {operand : Operand} (h : operand.Fits functions forest)
    (hforest : forest.Typed functions) : (operand.value forest).Fits functions operand.type := by
  rcases operand with ⟨type, value⟩ | ⟨owner, row⟩
  · exact h
  · obtain ⟨found, hfound, htype⟩ := h
    have hvalue : Operand.value forest (.variable owner row) = found.value := by
      rw [Operand.value, Forest.currentValue, hfound]
      rfl
    rw [hvalue, Operand.type, ← htype]
    exact (hforest.row? hfound).fits

end Operand

end LevelScript

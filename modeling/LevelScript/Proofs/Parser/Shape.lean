import LevelScript.Proofs.Parser.Reading

set_option autoImplicit false

namespace LevelScript

def TypeName.declarable : List TypeName :=
  [.number, .text, .boolean, .array]

inductive Role where
  | expression
  | command
  | parameter
  deriving DecidableEq, Repr

/-- `Sourced functions role node`: some source has this node in this role. Functions are declared
inside it only if `functions` says so. -/
inductive Sourced (functions : Bool) : Role → Node → Prop where
  | number {id : Nat} {value : Int} : Sourced functions .expression (.number id value)
  | boolean {id : Nat} {value : Bool} : Sourced functions .expression (.boolean id value)
  | text {id : Nat} {value : String} : Sourced functions .expression (.text id value)
  | identifier {id : Nat} {name : String} : Sourced functions .expression (.identifier id name)
  | binary {id : Nat} {op : BinaryOp} {left right : Node} :
      op ∈ BinaryOp.all → Sourced functions .expression left →
      Sourced functions .expression right → Sourced functions .expression (.binary id op left right)
  | unary {id : Nat} {op : UnaryOp} {operand : Node} :
      op ∈ [.plus, .minus] → Sourced functions .expression operand →
      Sourced functions .expression (.unary id op operand)
  | array {id : Nat} {elements : List Node} :
      (∀ node ∈ elements, Sourced functions .expression node) →
      Sourced functions .expression (.array id elements)
  | access {id label : Nat} {name : String} {index : Node} :
      Sourced functions .expression index →
      Sourced functions .expression (.access id (.identifier label name) index)
  | length {id label : Nat} {name : String} :
      Sourced functions .expression (.length id (.identifier label name))
  | call {role : Role} {id : Nat} {name : String} {arguments : List Node} :
      role ∈ [.expression, .command] → (∀ node ∈ arguments, Sourced functions .expression node) →
      Sourced functions role (.call id name arguments)
  | assignment {id label : Nat} {name : String} {value : Node} :
      Sourced functions .expression value →
      Sourced functions .command (.assignment id (.identifier label name) value)
  | declaration {id label : Nat} {name : String} {type : TypeName} {value : Node} :
      type ∈ TypeName.declarable → Sourced functions .expression value →
      Sourced functions .command (.declaration id (some type) (.identifier label name) (some value))
  | parameter {id label : Nat} {name : String} {type : TypeName} :
      type ∈ TypeName.declarable →
      Sourced functions .parameter (.declaration id (some type) (.identifier label name) none)
  | function {id label : Nat} {name : String} {result : Option TypeName} {parameters : List Node}
      {body : Node} :
      functions = true → (∀ type ∈ result, type ∈ TypeName.declarable) →
      (∀ node ∈ parameters, Sourced functions .parameter node) → Sourced functions .command body →
      Sourced functions .command
        (.function id name result (.identifier label name :: parameters ++ [body]))
  | block {id : Nat} {nodes : List Node} :
      (∀ node ∈ nodes, Sourced functions .command node) →
      Sourced functions .command (.block id nodes)
  | skip {id : Nat} : Sourced functions .command (.skip id)
  | conditional {id : Nat} {condition positive : Node} {negative : Option Node} :
      Sourced functions .expression condition → Sourced functions .command positive →
      (∀ node ∈ negative, Sourced functions .command node) →
      Sourced functions .command (.conditional id condition positive negative)
  | loop {id : Nat} {condition body : Node} :
      Sourced functions .expression condition → Sourced functions .command body →
      Sourced functions .command (.loop id condition body)
  | result {id : Nat} {value : Option Node} :
      (∀ node ∈ value, Sourced functions .expression node) →
      Sourced functions .command (.result id value)
  | action {id : Nat} {word : Keyword} {arguments : List Node} :
      word ∈ Keyword.actions → (∀ node ∈ arguments, Sourced functions .expression node) →
      Sourced functions .command (.action id (Token.keyword word).actionName arguments)

def Item.role : Item → Role
  | .expression => .expression
  | .parameter => .parameter

def Category.role : Category → Role
  | .parameter => .parameter
  | .level _ => .expression
  | .items item | .optionalItems item => item.role
  | _ => .command

theorem Item.category_role (item : Item) : item.category.role = item.role := by
  cases item <;> rfl

theorem Keyword.declarable_of_typeName? {word : Keyword} {type : TypeName}
    (h : word.typeName? = some type) : type ∈ TypeName.declarable := by
  cases word <;> cases h <;> decide

theorem ReadsType.declarable {tokens : List Token} {result : Option TypeName}
    (h : ReadsType tokens result) : ∀ type ∈ result, type ∈ TypeName.declarable := by
  rintro type ⟨⟩
  cases h with
  | some hword => exact Keyword.declarable_of_typeName? hword

theorem Level.op?_mem_all {l : Level} {token : Token} {op : BinaryOp}
    (h : l.op? token = some op) : op ∈ BinaryOp.all := by
  obtain ⟨mark, _, rfl⟩ := Level.op?_some h
  cases l <;> cases mark <;> cases h <;> decide

theorem Token.sign?_mem {token : Token} {op : UnaryOp} (h : token.sign? = some op) :
    op ∈ [UnaryOp.plus, .minus] := by
  obtain ⟨mark, _, rfl⟩ := Token.sign?_some h
  cases mark <;> cases h <;> decide

def Permits (functions : Bool) (tokens : List Token) : Prop :=
  functions = true ∨ Token.keyword .func ∉ tokens

theorem Permits.of_subset {functions : Bool} {u v : List Token} (h : Permits functions v)
    (huv : u ⊆ v) : Permits functions u :=
  h.imp id fun hv hu => hv (huv hu)

theorem Reads.sourced {functions : Bool} {category : Category} {n m : Nat} {tokens : List Token}
    {nodes : List Node} (h : Reads category n tokens nodes m) (hf : Permits functions tokens) :
    ∀ node ∈ nodes, Sourced functions category.role node := by
  -- the parts of a sequence of tokens may declare a function only if the whole may
  have part {u v : List Token} (hv : Permits functions v) (huv : ∀ t ∈ u, t ∈ v) :
      Permits functions u := hv.of_subset huv
  induction h with
  | programEnd | membersEnd | commandsEnd | noItems => nofun
  | programNext hcategory _ _ ihu ihv =>
    have hu := List.forall_mem_singleton.1 (ihu (part hf (by simp +contextual)))
    refine List.forall_mem_cons.2 ⟨?_, ihv (part hf (by simp +contextual))⟩
    simp only [List.mem_cons, List.not_mem_nil, or_false] at hcategory
    rcases hcategory with rfl | rfl | rfl <;> exact hu
  | membersNext hcategory _ _ ihu ihv =>
    have hu := List.forall_mem_singleton.1 (ihu (part hf (by simp +contextual)))
    refine List.forall_mem_cons.2 ⟨?_, ihv (part hf (by simp +contextual))⟩
    simp only [List.mem_cons, List.not_mem_nil, or_false] at hcategory
    rcases hcategory with rfl | rfl <;> exact hu
  | commandsSkip _ ih => exact ih (part hf (by simp +contextual))
  | commandsNext _ _ _ ihu ihv =>
    have hu := List.forall_mem_singleton.1 (ihu (part hf (by simp +contextual)))
    exact List.forall_mem_cons.2 ⟨hu, ihv (part hf (by simp +contextual))⟩
  | itemNext _ _ ihu ihv =>
    have hu := List.forall_mem_singleton.1 (ihu (part hf (by simp +contextual)))
    rw [Item.category_role] at hu
    exact List.forall_mem_cons.2 ⟨hu, ihv (part hf (by simp +contextual))⟩
  | itemLast _ ih =>
    rw [Item.category_role] at ih
    exact ih hf
  | someItems _ ih => exact ih hf
  | declared _ ih => exact ih hf
  | blocked _ ih => exact ih hf
  | operand _ _ ih => exact ih hf
  | group _ ih => exact ih (part hf (by simp +contextual))
  | variableDeclaration hword _ ih =>
    have hvalue := List.forall_mem_singleton.1 (ih (part hf (by simp +contextual)))
    exact List.forall_mem_singleton.2 (.declaration (Keyword.declarable_of_typeName? hword) hvalue)
  | functionDeclaration _ hresult _ ihp ihb =>
    have hparameters := ihp (part hf (by simp +contextual))
    have hbody := List.forall_mem_singleton.1 (ihb (part hf (by simp +contextual)))
    have hfunctions := hf.resolve_right (by simp)
    exact List.forall_mem_singleton.2
      (.function hfunctions hresult.declarable hparameters hbody)
  | parameter hword =>
    exact List.forall_mem_singleton.2 (.parameter (Keyword.declarable_of_typeName? hword))
  | entity _ ih =>
    exact List.forall_mem_singleton.2 (.block (ih (part hf (by simp +contextual))))
  | block _ ih =>
    exact List.forall_mem_singleton.2 (.block (ih (part hf (by simp +contextual))))
  | skip => exact List.forall_mem_singleton.2 .skip
  | conditional _ _ ihe ihc =>
    have hcondition := List.forall_mem_singleton.1 (ihe (part hf (by simp +contextual)))
    have hpositive := List.forall_mem_singleton.1 (ihc (part hf (by simp +contextual)))
    exact List.forall_mem_singleton.2 (.conditional hcondition hpositive nofun)
  | conditionalElse _ _ _ _ ihe ihc ihd =>
    have hcondition := List.forall_mem_singleton.1 (ihe (part hf (by simp +contextual)))
    have hpositive := List.forall_mem_singleton.1 (ihc (part hf (by simp +contextual)))
    have hnegative := List.forall_mem_singleton.1 (ihd (part hf (by simp +contextual)))
    exact List.forall_mem_singleton.2
      (.conditional hcondition hpositive (by rintro _ ⟨⟩; exact hnegative))
  | loop _ _ ihe ihc =>
    have hcondition := List.forall_mem_singleton.1 (ihe (part hf (by simp +contextual)))
    have hbody := List.forall_mem_singleton.1 (ihc (part hf (by simp +contextual)))
    exact List.forall_mem_singleton.2 (.loop hcondition hbody)
  | resultNone => exact List.forall_mem_singleton.2 (.result nofun)
  | result _ ih =>
    have hvalue := List.forall_mem_singleton.1 (ih (part hf (by simp +contextual)))
    exact List.forall_mem_singleton.2 (.result (by rintro _ ⟨⟩; exact hvalue))
  | action hword _ ih =>
    exact List.forall_mem_singleton.2 (.action hword (ih (part hf (by simp +contextual))))
  | callCommand _ ih =>
    exact List.forall_mem_singleton.2
      (.call (by decide) (ih (part hf (by simp +contextual))))
  | bareCall => exact List.forall_mem_singleton.2 (.call (by decide) nofun)
  | assignment _ ih =>
    have hvalue := List.forall_mem_singleton.1 (ih (part hf (by simp +contextual)))
    exact List.forall_mem_singleton.2 (.assignment hvalue)
  | elementAssignment _ _ _ ihe =>
    have hvalue := List.forall_mem_singleton.1 (ihe (part hf (by simp +contextual)))
    exact List.forall_mem_singleton.2 (.assignment hvalue)
  | binary hop _ _ ihu ihv =>
    have hleft := List.forall_mem_singleton.1 (ihu (part hf (by simp +contextual)))
    have hright := List.forall_mem_singleton.1 (ihv (part hf (by simp +contextual)))
    exact List.forall_mem_singleton.2 (.binary (Level.op?_mem_all hop) hleft hright)
  | signed hsign _ ih =>
    have hoperand := List.forall_mem_singleton.1 (ih (part hf (by simp +contextual)))
    exact List.forall_mem_singleton.2 (.unary (Token.sign?_mem hsign) hoperand)
  | number => exact List.forall_mem_singleton.2 .number
  | text => exact List.forall_mem_singleton.2 .text
  | trueFactor | falseFactor => exact List.forall_mem_singleton.2 .boolean
  | array _ ih =>
    exact List.forall_mem_singleton.2 (.array (ih (part hf (by simp +contextual))))
  | name => exact List.forall_mem_singleton.2 .identifier
  | call _ ih =>
    exact List.forall_mem_singleton.2
      (.call (by decide) (ih (part hf (by simp +contextual))))
  | access _ ih =>
    have hindex := List.forall_mem_singleton.1 (ih (part hf (by simp +contextual)))
    exact List.forall_mem_singleton.2 (.access hindex)
  | length => exact List.forall_mem_singleton.2 .length

namespace Node

/-- What is evaluated for its value. A call is one of these, also where it is a command. -/
def isExpression : Node → Bool
  | .number _ _ | .boolean _ _ | .text _ _ | .literal _ _ _ | .identifier _ _ | .binary _ _ _ _
  | .unary _ _ _ | .array _ _ | .access _ _ _ | .length _ _ | .call _ _ _ => true
  | _ => false

inductive Within : Node → Node → Prop where
  | root (node : Node) : Within node node
  | inside {node child tree : Node} : child ∈ tree.children → Within node child → Within node tree

end Node

theorem Sourced.children {functions : Bool} {role : Role} {node : Node}
    (h : Sourced functions role node) :
    ∀ child ∈ node.children, ∃ role, Sourced functions role child := by
  have single {part : Node} {r : Role} (hpart : Sourced functions r part) :
      ∀ child ∈ [part], ∃ role, Sourced functions role child :=
    List.forall_mem_singleton.2 ⟨r, hpart⟩
  have pair {left right : Node} {r s : Role} (hl : Sourced functions r left)
      (hr : Sourced functions s right) :
      ∀ child ∈ [left, right], ∃ role, Sourced functions role child :=
    List.forall_mem_cons.2 ⟨⟨r, hl⟩, single hr⟩
  cases h with
  | number | boolean | text | identifier | skip => nofun
  | binary _ hl hr => exact pair hl hr
  | unary _ ho => exact single ho
  | array hnodes => exact fun child hchild => ⟨_, hnodes child hchild⟩
  | access hi => exact pair .identifier hi
  | length => exact single .identifier
  | call _ ha => exact fun child hchild => ⟨_, ha child hchild⟩
  | assignment hv => exact pair .identifier hv
  | declaration _ hv => exact pair .identifier hv
  | parameter => exact single .identifier
  | function _ _ hp hb =>
    refine List.forall_mem_append.2 ⟨List.forall_mem_cons.2 ⟨⟨_, .identifier⟩, ?_⟩, single hb⟩
    exact fun child hchild => ⟨_, hp child hchild⟩
  | block hnodes => exact fun child hchild => ⟨_, hnodes child hchild⟩
  | conditional hc hp hn =>
    refine List.forall_mem_cons.2 ⟨⟨_, hc⟩, List.forall_mem_cons.2 ⟨⟨_, hp⟩, ?_⟩⟩
    exact fun child hchild => ⟨_, hn child (Option.mem_toList.1 hchild)⟩
  | loop hc hb => exact pair hc hb
  | result hv => exact fun child hchild => ⟨_, hv child (Option.mem_toList.1 hchild)⟩
  | action _ ha => exact fun child hchild => ⟨_, ha child hchild⟩

theorem Sourced.operands {functions : Bool} {node : Node}
    (h : Sourced functions .expression node) :
    ∀ child ∈ node.children, Sourced functions .expression child := by
  cases h with
  | number | boolean | text | identifier => nofun
  | binary _ hl hr => exact List.forall_mem_cons.2 ⟨hl, List.forall_mem_singleton.2 hr⟩
  | unary _ ho => exact List.forall_mem_singleton.2 ho
  | array hnodes => exact hnodes
  | access hi => exact List.forall_mem_cons.2 ⟨.identifier, List.forall_mem_singleton.2 hi⟩
  | length => exact List.forall_mem_singleton.2 .identifier
  | call _ ha => exact ha

theorem Sourced.arguments {functions : Bool} {role : Role} {id : Nat} {name : ActionName}
    {arguments : List Node} (h : Sourced functions role (.action id name arguments)) :
    ∀ node ∈ arguments, Sourced functions .expression node := by
  cases h with
  | action _ ha => exact ha

theorem Sourced.declarable_parameterType? {functions : Bool} {parameter : Node} {type : TypeName}
    (h : Sourced functions .parameter parameter) (htype : parameter.parameterType? = some type) :
    type ∈ TypeName.declarable := by
  cases h with
  | parameter hdeclarable => exact Option.some.inj htype ▸ hdeclarable
  | call hrole => exact absurd hrole (by decide)

theorem Sourced.within {functions : Bool} {role : Role} {node tree : Node}
    (h : Sourced functions role tree) (hnode : node.Within tree) :
    ∃ role, Sourced functions role node := by
  induction hnode generalizing role with
  | root => exact ⟨role, h⟩
  | inside hchild _ ih =>
    obtain ⟨_, hsourced⟩ := h.children _ hchild
    exact ih hsourced

theorem Sourced.isExpression {functions : Bool} {node : Node}
    (h : Sourced functions .expression node) : node.isExpression = true := by
  cases h <;> rfl

theorem Sourced.expression {functions : Bool} {role : Role} {node : Node}
    (h : Sourced functions role node) (hnode : node.isExpression = true) :
    Sourced functions .expression node := by
  have hshape := h
  cases hshape with
  | call _ ha => exact .call (by decide) ha
  | number | boolean | text | identifier | binary | unary | array | access | length => exact h
  | assignment | declaration | parameter | function | block | skip | conditional | loop | result
  | action => cases hnode

end LevelScript

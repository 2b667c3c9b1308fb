import LevelScript.Operator
import LevelScript.TypeName

/-!
# Syntax trees

One type for expressions, statements and whole programs. Every node has a number, given in the
order of construction. What is declared, the label and the parameters of a function are nodes of
their own and have numbers too. Trees may be built by hand, so the label of a declaration and the
parts of a function can be any nodes, and a number or a text can hold a value of another kind;
those that no source has are faults only when they are evaluated.
-/

set_option autoImplicit false

namespace LevelScript

/-- Plain data, as a tree built by hand can hold it. -/
inductive Literal where
  | number (value : Int)
  | text (value : String)
  | boolean (value : Bool)
  | array (items : List Literal)
  | void
  deriving Repr

inductive LiteralKind where
  | number
  | text
  deriving DecidableEq, Repr

def LiteralKind.type : LiteralKind → TypeName
  | .number => .number
  | .text => .text

inductive Node where
  /-- A node that stands for nothing and gives no result. -/
  | blank (id : Nat)
  | number (id : Nat) (value : Int)
  | boolean (id : Nat) (value : Bool)
  | text (id : Nat) (value : String)
  /-- A number or a text whose value is of another kind. -/
  | literal (id : Nat) (kind : LiteralKind) (value : Literal)
  | identifier (id : Nat) (name : String)
  | binary (id : Nat) (op : BinaryOp) (left right : Node)
  | unary (id : Nat) (op : UnaryOp) (operand : Node)
  | array (id : Nat) (elements : List Node)
  | access (id : Nat) (array index : Node)
  | length (id : Nat) (array : Node)
  | call (id : Nat) (name : String) (arguments : List Node)
  | assignment (id : Nat) (target value : Node)
  | declaration (id : Nat) (type : Option TypeName) (label : Node) (value : Option Node)
  /-- The parts are the label, the parameters, which are declarations without a value, and the
  body. -/
  | function (id : Nat) (name : String) (result : Option TypeName) (parts : List Node)
  | block (id : Nat) (commands : List Node)
  | skip (id : Nat)
  | conditional (id : Nat) (condition positive : Node) (negative : Option Node)
  | loop (id : Nat) (condition body : Node)
  | result (id : Nat) (value : Option Node)
  | action (id : Nat) (name : ActionName) (arguments : List Node)
  deriving Repr

inductive NodeKind where
  | blank
  | number
  | boolean
  | text
  | identifier
  | binary
  | unary
  | array
  | access
  | length
  | call
  | assignment
  | declaration
  | function
  | block
  | skip
  | conditional
  | loop
  | result
  | action
  deriving DecidableEq, Repr

def NodeKind.word : NodeKind → String
  | .blank => "Node"
  | .number => "NumberVal"
  | .boolean => "BooleanVal"
  | .text => "StringVal"
  | .identifier => "Identifier"
  | .binary => "BinOp"
  | .unary => "UnOp"
  | .array => "ArrayLiteral"
  | .access => "ArrayAccess"
  | .length => "LenCall"
  | .call => "FuncCall"
  | .assignment => "Assignment"
  | .declaration => "VarDec"
  | .function => "FuncDec"
  | .block => "Block"
  | .skip => "NoOp"
  | .conditional => "If"
  | .loop => "Until"
  | .result => "Return"
  | .action => "Action"

namespace Node

instance : Inhabited Node := ⟨.skip 0⟩

def id : Node → Nat
  | .blank id | .number id _ | .boolean id _ | .text id _ | .literal id _ _ | .identifier id _
  | .binary id _ _ _ | .unary id _ _ | .array id _ | .access id _ _ | .length id _ | .call id _ _
  | .assignment id _ _ | .declaration id _ _ _ | .function id _ _ _ | .block id _ | .skip id
  | .conditional id _ _ _ | .loop id _ _ | .result id _ | .action id _ _ => id

def kind : Node → NodeKind
  | .blank _ => .blank
  | .number _ _ | .literal _ .number _ => .number
  | .boolean _ _ => .boolean
  | .text _ _ | .literal _ .text _ => .text
  | .identifier _ _ => .identifier
  | .binary _ _ _ _ => .binary
  | .unary _ _ _ => .unary
  | .array _ _ => .array
  | .access _ _ _ => .access
  | .length _ _ => .length
  | .call _ _ _ => .call
  | .assignment _ _ _ => .assignment
  | .declaration _ _ _ _ => .declaration
  | .function _ _ _ _ => .function
  | .block _ _ => .block
  | .skip _ => .skip
  | .conditional _ _ _ _ => .conditional
  | .loop _ _ _ => .loop
  | .result _ _ => .result
  | .action _ _ _ => .action

def children : Node → List Node
  | .blank _ | .number _ _ | .boolean _ _ | .text _ _ | .literal _ _ _ | .identifier _ _
  | .skip _ => []
  | .binary _ _ left right => [left, right]
  | .unary _ _ operand => [operand]
  | .array _ elements => elements
  | .access _ accessed index => [accessed, index]
  | .length _ measured => [measured]
  | .call _ _ arguments => arguments
  | .assignment _ target value => [target, value]
  | .declaration _ _ label value => label :: value.toList
  | .function _ _ _ parts => parts
  | .block _ commands => commands
  | .conditional _ condition positive negative => condition :: positive :: negative.toList
  | .loop _ condition body => [condition, body]
  | .result _ value => value.toList
  | .action _ _ arguments => arguments

def name? : Node → Option String
  | .identifier _ name | .call _ name _ | .function _ name _ _ => some name
  | _ => none

/-- The word that a node carries besides its parts: a name, an operator, an action, a type, or the
fixed word of its kind. -/
def word? : Node → Option String
  | .blank _ | .number _ _ | .boolean _ _ | .text _ _ | .literal _ _ _ => none
  | .identifier _ name => some name
  | .binary _ op _ _ => some op.spelling
  | .unary _ op _ => some op.spelling
  | .array _ _ => some "array_literal"
  | .access _ _ _ => some "array_access"
  | .length _ _ => some "len"
  | .call _ _ _ => some "funccall"
  | .assignment _ _ _ => some "="
  | .declaration _ type _ _ => type.map TypeName.name
  | .function _ _ type _ => type.map TypeName.name
  | .block _ _ => some "block"
  | .skip _ => some "noop"
  | .conditional _ _ _ _ => some "if"
  | .loop _ _ _ => some "until"
  | .result _ _ => some "return"
  | .action _ name _ => some name.name

/-- The type that a node gives as a parameter: that of a declaration, else what its word names. -/
def parameterType? : Node → Option TypeName
  | .declaration _ type _ _ => type
  | node => node.word?.map TypeName.ofName

def isBlock : Node → Bool
  | .block _ _ => true
  | _ => false

end Node

end LevelScript

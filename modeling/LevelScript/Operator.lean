set_option autoImplicit false

namespace LevelScript

inductive Arithmetic where
  | add
  | subtract
  | multiply
  | divide
  deriving DecidableEq, Repr

inductive Order where
  | less
  | greater
  | atMost
  | atLeast
  deriving DecidableEq, Repr

inductive Connective where
  | and
  | or
  deriving DecidableEq, Repr

inductive BinaryOp where
  | arithmetic (op : Arithmetic)
  | equal
  | notEqual
  | order (op : Order)
  | connective (op : Connective)
  | other (spelling : String)
  deriving DecidableEq, Repr

inductive UnaryOp where
  | plus
  | minus
  | not
  | other (spelling : String)
  deriving DecidableEq, Repr

inductive ActionName where
  | say
  | wait
  | move
  | attack
  | gather
  | use
  | other (name : String)
  deriving DecidableEq, Repr

def Arithmetic.spelling : Arithmetic → String
  | .add => "+"
  | .subtract => "-"
  | .multiply => "*"
  | .divide => "/"

def Order.spelling : Order → String
  | .less => "<"
  | .greater => ">"
  | .atMost => "<="
  | .atLeast => ">="

def Connective.spelling : Connective → String
  | .and => "&&"
  | .or => "||"

def BinaryOp.spelling : BinaryOp → String
  | .arithmetic op => op.spelling
  | .equal => "=="
  | .notEqual => "!="
  | .order op => op.spelling
  | .connective op => op.spelling
  | .other spelling => spelling

def BinaryOp.all : List BinaryOp :=
  [.arithmetic .add, .arithmetic .subtract, .arithmetic .multiply, .arithmetic .divide, .equal,
   .notEqual, .order .less, .order .greater, .order .atMost, .order .atLeast, .connective .and,
   .connective .or]

def BinaryOp.ofSpelling (spelling : String) : BinaryOp :=
  (all.find? fun op => op.spelling = spelling).getD (.other spelling)

def UnaryOp.spelling : UnaryOp → String
  | .plus => "+"
  | .minus => "-"
  | .not => "!"
  | .other spelling => spelling

def UnaryOp.ofSpelling (spelling : String) : UnaryOp :=
  if spelling = "+" then .plus
  else if spelling = "-" then .minus
  else if spelling = "!" then .not
  else .other spelling

def ActionName.name : ActionName → String
  | .say => "say"
  | .wait => "wait"
  | .move => "move"
  | .attack => "attack"
  | .gather => "gather"
  | .use => "use"
  | .other name => name

def ActionName.ofName (name : String) : ActionName :=
  if name = "say" then .say
  else if name = "wait" then .wait
  else if name = "move" then .move
  else if name = "attack" then .attack
  else if name = "gather" then .gather
  else if name = "use" then .use
  else .other name

end LevelScript

import LevelScript.Value.Basic

set_option autoImplicit false

namespace LevelScript

inductive ValueFault where
  | unsupported (op : Arithmetic) (left right : ValueKind)
  /-- A text or an array is joined with something else. -/
  | notJoined (left right : ValueKind)
  /-- A text or an array is repeated by something that is not a number. -/
  | notCount (kind : ValueKind)
  /-- A count is too far from zero. -/
  | countTooLarge
  /-- A repeated text would have more characters than can be counted. -/
  | textTooLong
  /-- There is no room for what is repeated. -/
  | noRoom
  | divisionByZero
  | notNegated (kind : ValueKind)
  | notOrdered (op : Order) (left right : ValueKind)
  | noLength (kind : ValueKind)
  /-- There are not so many items. -/
  | noItem
  | notDuration (kind : ValueKind)
  deriving DecidableEq, Repr

def Arithmetic.symbol : Arithmetic → String
  | .divide => "//"
  | op => op.spelling

def ValueFault.message : ValueFault → String
  | .unsupported op left right =>
    "unsupported operand type(s) for " ++ op.symbol ++ ": '" ++ left.word ++ "' and '" ++
      right.word ++ "'"
  | .notJoined left right =>
    "can only concatenate " ++ left.word ++ " (not \"" ++ right.word ++ "\") to " ++ left.word
  | .notCount kind => "can't multiply sequence by non-int of type '" ++ kind.word ++ "'"
  | .countTooLarge => "cannot fit 'int' into an index-sized integer"
  | .textTooLong => "repeated string is too long"
  | .noRoom => ""
  | .divisionByZero => "integer division or modulo by zero"
  | .notNegated kind => "bad operand type for unary -: '" ++ kind.word ++ "'"
  | .notOrdered op left right =>
    "'" ++ op.spelling ++ "' not supported between instances of '" ++ left.word ++ "' and '" ++
      right.word ++ "'"
  | .noLength kind => "object of type '" ++ kind.word ++ "' has no len()"
  | .noItem => "list index out of range"
  | .notDuration kind => "'" ++ kind.word ++ "' object cannot be interpreted as an integer"

def Arithmetic.apply : Arithmetic → Int → Int → Int
  | .add, m, n => m + n
  | .subtract, m, n => m - n
  | .multiply, m, n => m * n
  | .divide, m, n => m.fdiv n

/-- An order holds according to which of the two strict ones do. -/
def Order.holds (op : Order) (less greater : Bool) : Bool :=
  match op with
  | .less => less
  | .greater => greater
  | .atMost => !greater
  | .atLeast => !less

def Order.ofInts (op : Order) (m n : Int) : Bool :=
  op.holds (m < n) (n < m)

def Order.ofTexts (op : Order) (s t : String) : Bool :=
  op.holds (s < t) (t < s)

namespace Value

def join : Value → Value → Except ValueFault Value
  | .text s, .text t => .ok (.text (s ++ t))
  | .array xs, .array ys => .ok (.array (xs ++ ys))
  | .text _, right => .error (.notJoined .text right.kind)
  | .array _, right => .error (.notJoined .array right.kind)
  | left, right => .error (.unsupported .add left.kind right.kind)

/-- Lengths are below this, and counts are not farther than this below zero. -/
def lengthLimit : Nat := Nat.pow 2 63

/-- How many characters or items there is room for, which is for the machine to say. -/
def room : Nat := Nat.pow 2 32

/-- How often something of this length is to be repeated; less than once, and an empty thing at all,
is not repeated. A result that is too long to be counted is the fault `tooLong`. -/
def repetitions (length : Nat) (tooLong : ValueFault) (count : Value) : Except ValueFault Nat :=
  match count.integer? with
  | none => .error (.notCount count.kind)
  | some n =>
    if n < -(lengthLimit : Int) ∨ (lengthLimit : Int) ≤ n then .error .countTooLarge
    else if length = 0 then .ok 0
    else if lengthLimit ≤ length * n.toNat then .error tooLong
    else if room ≤ length * n.toNat then .error .noRoom
    else .ok n.toNat

def repeatedText (s : String) (count : Value) : Except ValueFault Value := do
  return .text (String.join (List.replicate (← repetitions s.length .textTooLong count) s))

def repeatedArray (items : List Value) (count : Value) : Except ValueFault Value := do
  return .array (List.replicate (← repetitions items.length .noRoom count) items).flatten

/-- `left` and `right` in either order are what is repeated and how often. -/
def repeated : Value → Value → Except ValueFault Value
  | .text s, count => repeatedText s count
  | .array items, count => repeatedArray items count
  | count, .text s => repeatedText s count
  | count, .array items => repeatedArray items count
  | left, right => .error (.unsupported .multiply left.kind right.kind)

def arithmetic (op : Arithmetic) (left right : Value) : Except ValueFault Value :=
  match left.integer?, right.integer? with
  | some m, some n =>
    if op = .divide ∧ n = 0 then .error .divisionByZero else .ok (.number (op.apply m n))
  | _, _ =>
    match op with
    | .add => join left right
    | .multiply => repeated left right
    | op => .error (.unsupported op left.kind right.kind)

def negated (operand : Value) : Except ValueFault Value :=
  match operand.integer? with
  | some n => .ok (.number (-n))
  | none => .error (.notNegated operand.kind)

mutual

def order (op : Order) : Value → Value → Except ValueFault Bool
  | .text s, .text t => .ok (op.ofTexts s t)
  | .array xs, .array ys => orderItems op xs ys
  | left, right =>
    match left.integer?, right.integer? with
    | some m, some n => .ok (op.ofInts m n)
    | _, _ => .error (.notOrdered op left.kind right.kind)

/-- Arrays are ordered by the first items that differ, else by their lengths. -/
def orderItems (op : Order) : List Value → List Value → Except ValueFault Bool
  | x :: xs, y :: ys => if same x y then orderItems op xs ys else order op x y
  | xs, ys => .ok (op.ofInts xs.length ys.length)

end

def length (value : Value) : Except ValueFault Nat :=
  match value.items? with
  | some items => .ok items.length
  | none => .error (.noLength value.kind)

def item (value : Value) (index : Nat) : Except ValueFault Value :=
  match value.items? with
  | some items =>
    match items[index]? with
    | some item => .ok item
    | none => .error .noItem
  | none => .error (.noLength value.kind)

end Value

end LevelScript

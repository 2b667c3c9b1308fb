import LevelScript.Node.Basic
import LevelScript.Numeral

/-!
# Values

A name of a function used without a call is a value too: the function itself. Two functions are
the same when they come from the same declaration. Truth values count as the numbers zero and one.
-/

set_option autoImplicit false

namespace LevelScript

structure Function where
  id : Nat
  name : String
  result : Option TypeName
  /-- The label, the parameters and the body. -/
  parts : List Node
  deriving Repr

namespace Function

def parameters (f : Function) : List Node :=
  f.parts.tail.dropLast

def body? (f : Function) : Option Node :=
  f.parts.getLast?

end Function

inductive Value where
  | number (value : Int)
  | text (value : String)
  | boolean (value : Bool)
  | array (items : List Value)
  | void
  | function (declared : Function)
  deriving Repr

inductive ValueKind where
  | number
  | text
  | boolean
  | array
  | void
  | function
  deriving DecidableEq, Repr

def ValueKind.word : ValueKind → String
  | .number => "int"
  | .text => "str"
  | .boolean => "bool"
  | .array => "list"
  | .void => "NoneType"
  | .function => "FuncDec"

namespace Value

instance : Inhabited Value := ⟨.void⟩

mutual

def ofLiteral : Literal → Value
  | .number n => .number n
  | .text s => .text s
  | .boolean b => .boolean b
  | .array items => .array (ofLiterals items)
  | .void => .void

def ofLiterals : List Literal → List Value
  | [] => []
  | item :: items => ofLiteral item :: ofLiterals items

end

def kind : Value → ValueKind
  | .number _ => .number
  | .text _ => .text
  | .boolean _ => .boolean
  | .array _ => .array
  | .void => .void
  | .function _ => .function

def integer? : Value → Option Int
  | .number n => some n
  | .boolean b => some (if b then 1 else 0)
  | _ => none

def truth : Value → Bool
  | .number n => n ≠ 0
  | .text s => s ≠ ""
  | .boolean b => b
  | .array items => !items.isEmpty
  | .void => false
  | .function _ => true

def items? : Value → Option (List Value)
  | .array items => some items
  | .text s => some (s.toList.map fun c => .text (String.singleton c))
  | _ => none

def initial? : TypeName → Option Value
  | .number => some (.number 0)
  | .text => some (.text "")
  | .boolean => some (.boolean false)
  | .array => some (.array [])
  | .void => some .void
  | .other _ => none

def elementType : Value → TypeName
  | .number _ => .number
  | .boolean _ => .boolean
  | .array _ => .array
  | .text _ | .void | .function _ => .text

mutual

def same : Value → Value → Bool
  | .text s, .text t => s = t
  | .array xs, .array ys => sameItems xs ys
  | .void, .void => true
  | .function f, .function g => f.id = g.id
  | .number m, .number n => m = n
  | .number m, .boolean b => m = if b then 1 else 0
  | .boolean b, .number n => (if b then 1 else 0) = n
  | .boolean a, .boolean b => a = b
  | _, _ => false

def sameItems : List Value → List Value → Bool
  | [], [] => true
  | x :: xs, y :: ys => same x y && sameItems xs ys
  | _, _ => false

end

end Value

/-- The texts under which things are shown that have no text of their own. -/
structure Titles where
  /-- The text of a function, by the number of its declaration. -/
  function : Nat → String
  /-- The text of what is returned outside of a function. -/
  result : String

def Titles.numbered : Titles :=
  ⟨fun id => "<function " ++ toString id ++ ">", "<result>"⟩

namespace Value

mutual

def written (titles : Titles) : Value → Except NumeralFault String
  | .number n => Numeral.write n
  | .text s => .ok (Text.quoted s)
  | .boolean b => .ok (if b then "True" else "False")
  | .array items => do return "[" ++ String.intercalate ", " (← writtenItems titles items) ++ "]"
  | .void => .ok "None"
  | .function f => .ok (titles.function f.id)

def writtenItems (titles : Titles) : List Value → Except NumeralFault (List String)
  | [] => .ok []
  | x :: xs => do return (← written titles x) :: (← writtenItems titles xs)

end

/-- The form of a value on its own: a text stands for itself. -/
def display (titles : Titles) : Value → Except NumeralFault String
  | .text s => .ok s
  | value => value.written titles

end Value

end LevelScript

import LevelScript.Value.Basic

set_option autoImplicit false

namespace LevelScript

inductive ScopeFault where
  | alreadyDeclared (name : String)
  | unknownType (type : TypeName)
  | functionTarget (name : String)
  | incompatible (name : String) (expected found : TypeName)
  | undeclared (name : String)
  deriving DecidableEq, Repr

def ScopeFault.message : ScopeFault → String
  | .alreadyDeclared name => "[Semantic] Variável já declarada: " ++ name
  | .unknownType type => "[Semantic] Tipo desconhecido na declaração: " ++ type.name
  | .functionTarget name => "[Semantic] Não é possível atribuir a função " ++ name
  | .incompatible name expected found =>
    "[Semantic] Tipo incompatível para variável " ++ name ++ ": esperado " ++ expected.name ++
      ", obtido " ++ found.name
  | .undeclared name => "[Semantic] Variável não declarada: " ++ name

structure Row where
  name : String
  type : TypeName
  value : Value
  shift : Nat
  isFunction : Bool
  deriving Repr

abbrev ScopeId := Nat

structure Scope where
  /-- The enclosing scopes, the nearest first. -/
  ancestors : List ScopeId
  rows : List Row
  nextShift : Nat
  deriving Repr

namespace Scope

def empty (ancestors : List ScopeId) : Scope :=
  ⟨ancestors, [], 4⟩

def row? (scope : Scope) (name : String) : Option Row :=
  scope.rows.find? fun row => row.name = name

/-- The value that a new row gets: a missing one is filled in, except for a function. -/
def startValue (type : TypeName) (value : Value) (isFunction : Bool) :
    Except ScopeFault Value :=
  match value, isFunction with
  | .void, false =>
    match Value.initial? type with
    | some value => .ok value
    | none => .error (.unknownType type)
  | value, _ => .ok value

def newRow (scope : Scope) (name : String) (type : TypeName) (value : Value)
    (isFunction : Bool) : Except ScopeFault Row :=
  match scope.row? name with
  | some _ => .error (.alreadyDeclared name)
  | none => do
    let value ← startValue type value isFunction
    return ⟨name, type, value, scope.nextShift, isFunction⟩

def add (scope : Scope) (row : Row) : Scope :=
  { scope with rows := scope.rows ++ [row], nextShift := scope.nextShift + 4 }

def write (scope : Scope) (name : String) (value : Value) : Scope :=
  { scope with
    rows := scope.rows.map fun row => if row.name = name then { row with value := value } else row }

end Scope

structure Forest where
  scopes : Array Scope
  deriving Repr

namespace Forest

def empty : Forest :=
  ⟨#[]⟩

def scope? (forest : Forest) (id : ScopeId) : Option Scope :=
  forest.scopes[id]?

def chain (forest : Forest) (id : ScopeId) : List ScopeId :=
  id :: ((forest.scope? id).map Scope.ancestors).getD []

def grow (forest : Forest) (parent : Option ScopeId) : ScopeId × Forest :=
  (forest.scopes.size, ⟨forest.scopes.push (.empty ((parent.map forest.chain).getD []))⟩)

def rows (forest : Forest) (id : ScopeId) : List Row :=
  ((forest.scope? id).map Scope.rows).getD []

def row? (forest : Forest) (id : ScopeId) (name : String) : Option Row :=
  (forest.scope? id).bind fun scope => scope.row? name

def nearest? (forest : Forest) (name : String) : List ScopeId → Option (ScopeId × Row)
  | [] => none
  | id :: rest =>
    match forest.row? id name with
    | some row => some (id, row)
    | none => forest.nearest? name rest

def resolve (forest : Forest) (id : ScopeId) (name : String) :
    Except ScopeFault (ScopeId × Row) :=
  match forest.nearest? name (forest.chain id) with
  | some found => .ok found
  | none => .error (.undeclared name)

def target (forest : Forest) (id : ScopeId) (name : String) (type : TypeName) :
    Except ScopeFault ScopeId := do
  let (owner, row) ← forest.resolve id name
  if row.isFunction then throw (.functionTarget name)
  if row.type ≠ type then throw (.incompatible name row.type type)
  return owner

def write (forest : Forest) (owner : ScopeId) (name : String) (value : Value) : Forest :=
  ⟨forest.scopes.modify owner fun scope => scope.write name value⟩

def assign (forest : Forest) (id : ScopeId) (name : String) (type : TypeName) (value : Value) :
    Except ScopeFault Forest := do
  let owner ← forest.target id name type
  return forest.write owner name value

/-- The row that a declaration would add to a scope; there is none to add it to if `id` is not a
scope. -/
def newRow (forest : Forest) (id : ScopeId) (name : String) (type : TypeName) (value : Value)
    (isFunction : Bool) : Except ScopeFault Row :=
  match forest.scope? id with
  | none => .error (.undeclared name)
  | some scope => scope.newRow name type value isFunction

def add (forest : Forest) (id : ScopeId) (row : Row) : Forest :=
  ⟨forest.scopes.modify id fun scope => scope.add row⟩

def declare (forest : Forest) (id : ScopeId) (name : String) (type : TypeName) (value : Value)
    (isFunction : Bool) : Except ScopeFault Forest := do
  let row ← forest.newRow id name type value isFunction
  return forest.add id row

/-- The value that a row found in scope `owner` has now. -/
def currentValue (forest : Forest) (owner : ScopeId) (row : Row) : Value :=
  ((forest.row? owner row.name).map Row.value).getD row.value

end Forest

end LevelScript

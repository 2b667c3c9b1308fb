set_option autoImplicit false

namespace LevelScript

inductive TypeName where
  | number
  | text
  | boolean
  | array
  | void
  | other (name : String)
  deriving DecidableEq, Repr

namespace TypeName

def name : TypeName → String
  | .number => "number"
  | .text => "text"
  | .boolean => "boolean"
  | .array => "array"
  | .void => "void"
  | .other name => name

def ofName (name : String) : TypeName :=
  if name = "number" then .number
  else if name = "text" then .text
  else if name = "boolean" then .boolean
  else if name = "array" then .array
  else if name = "void" then .void
  else .other name

end TypeName

end LevelScript

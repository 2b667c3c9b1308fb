set_option autoImplicit false

namespace LevelScript.Text

structure CodeRange where
  first : Nat
  last : Nat

def CodeRange.contains (r : CodeRange) (c : Char) : Bool :=
  r.first ≤ c.toNat && c.toNat ≤ r.last

def covers (ranges : List CodeRange) (c : Char) : Bool :=
  ranges.any (·.contains c)

end LevelScript.Text

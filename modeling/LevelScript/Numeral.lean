import LevelScript.Text.Digit
import LevelScript.Text.Quoted

set_option autoImplicit false

namespace LevelScript

inductive NumeralFault where
  /-- A numeral of so many digits was to be read. -/
  | tooManyDigits (count : Nat)
  /-- The text has a digit that is not decimal. -/
  | malformed (text : String)
  /-- A number of too many digits was to be written. -/
  | tooLarge
  deriving DecidableEq, Repr

namespace Numeral

def digitLimit : Nat := 4300

def value (digits : List Char) : Nat :=
  digits.foldl (fun n c => 10 * n + (Text.decimalValue? c).getD 0) 0

/-- Reads a run of digits. The decimal ones at its start are counted before any other is met. -/
def read (digits : List Char) : Except NumeralFault Nat :=
  let decimals := digits.takeWhile fun c => (Text.decimalValue? c).isSome
  if digitLimit < decimals.length then .error (.tooManyDigits decimals.length)
  else if decimals.length < digits.length then .error (.malformed (String.ofList digits))
  else .ok (value decimals)

def decimal : Int → String
  | .ofNat n => Nat.repr n
  | .negSucc n => "-" ++ Nat.repr (n + 1)

def write (n : Int) : Except NumeralFault String :=
  if n.natAbs < Nat.pow 10 digitLimit then .ok (decimal n) else .error .tooLarge

end Numeral

def NumeralFault.message : NumeralFault → String
  | .tooManyDigits count =>
    "Exceeds the limit (4300 digits) for integer string conversion: value has " ++ Nat.repr count ++
      " digits; use sys.set_int_max_str_digits() to increase the limit"
  | .malformed text =>
    "invalid literal for int() with base 10: " ++
      String.ofList ((Text.quotedChars text.toList).take 200)
  | .tooLarge =>
    "Exceeds the limit (4300 digits) for integer string conversion; " ++
      "use sys.set_int_max_str_digits() to increase the limit"

end LevelScript

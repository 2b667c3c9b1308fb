import LevelScript.Checker.Scanner

set_option autoImplicit false

namespace LevelScript.Checker

open Text (Bytes)

structure Lexeme where
  terminal : Terminal
  text : Bytes
  deriving DecidableEq, Repr

inductive Feed where
  | finish
  | invalid (byte : UInt8)
  | next (lexeme : Lexeme) (rest : Feed)
  deriving DecidableEq, Repr

def Pattern.terminal? : Pattern → Option Terminal
  | .word keyword => some (.keyword keyword)
  | .mark symbol => some (.symbol symbol)
  | .name => some .identifier
  | .digits => some .number
  | .quoted => some .text
  | .blanks | .lineComment | .blockComment | .anyByte => none

namespace Feed

def ofBytes (bytes : Bytes) : Feed :=
  match bytes with
  | [] => .finish
  | b :: rest =>
    match Scanner.take? (b :: rest) with
    | none => .invalid b
    | some (.anyByte, _) => .invalid b
    | some (pattern, size) =>
      match pattern.terminal? with
      | none => ofBytes (rest.drop (size - 1))
      | some terminal =>
        .next ⟨terminal, (b :: rest).take size⟩ (ofBytes (rest.drop (size - 1)))
termination_by bytes.length
decreasing_by all_goals simp only [List.length_cons, List.length_drop]; omega

def length : Feed → Nat
  | .finish => 0
  | .invalid _ => 0
  | .next _ rest => rest.length + 1

end Feed

namespace Lexeme

def shown (text : Bytes) : Bytes :=
  text.takeWhile (· ≠ 0)

/-- What a quoted text shows: the first quote goes, the rest up to a null byte loses its last
byte, which is the other quote if there is no null byte. -/
def content (text : Bytes) : Bytes :=
  (shown (text.drop 1)).dropLast

def largest : UInt64 := 0x7fffffffffffffff

def extend (n : UInt64) (b : UInt8) : UInt64 :=
  let digit := (b - Pattern.byte '0').toUInt64
  if n < largest / 10 ∨ n = largest / 10 ∧ digit ≤ largest % 10 then 10 * n + digit else largest

/-- The number of a numeral: the low 32 bits of what its digits give, with a sign. -/
def number (digits : Bytes) : Int :=
  (digits.foldl extend 0).toUInt32.toInt32.toInt

end Lexeme

end LevelScript.Checker

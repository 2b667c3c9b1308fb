import LevelScript.Checker.Pattern
import LevelScript.Text.Utf8

/-!
# The scanner

Bytes are read through a table of states. The row of a state has the pattern that matches what has
been read when the state is reached, if there is one, and the states after the bytes that may follow.
The scanner goes on as long as there is a state to go to, and then takes what it had read at the
last state with a pattern.
-/

set_option autoImplicit false

namespace LevelScript.Checker

open Text (Bytes)

inductive ByteSet where
  | byte (c : Char)
  | blank
  | digit
  | letter
  | nameByte
  /-- All but a quote and a backslash. -/
  | plain
  /-- All but a line end. -/
  | inLine
  deriving DecidableEq, Repr

def ByteSet.contains : ByteSet → UInt8 → Bool
  | .byte c, b => b == Pattern.byte c
  | .blank, b => Pattern.isBlank b
  | .digit, b => Pattern.isDigit b
  | .letter, b => Pattern.isLetter b
  | .nameByte, b => Pattern.isNameByte b
  | .plain, b => b ≠ Pattern.quote && b ≠ Pattern.backslash
  | .inLine, b => b ≠ Pattern.newline

def ByteSet.move? {α : Type} (moves : List (ByteSet × α)) (b : UInt8) : Option α :=
  (moves.find? fun move => move.1.contains b).map Prod.snd

namespace Scanner

structure Row where
  accepts : Option Pattern
  moves : List (ByteSet × Nat)
  deriving DecidableEq, Repr

def only (moves : List (Char × Nat)) : List (ByteSet × Nat) :=
  moves.map fun move => (.byte move.1, move.2)

def closed (pattern : Pattern) : Row :=
  ⟨some pattern, []⟩

/-- A state within a word. The letters go on with a keyword. -/
def wordRow (pattern : Pattern) (letters : List (Char × Nat)) : Row :=
  ⟨some pattern, only letters ++ [(.nameByte, 53)]⟩

def startRow : Row :=
  ⟨none,
    only
      [('\n', 3), ('!', 4), ('\x22', 5), ('&', 6), ('(', 7), (')', 8), ('*', 9), ('+', 10),
       (',', 11), ('-', 12), ('/', 13), (':', 15), (';', 16), ('<', 17), ('=', 18), ('>', 19),
       ('[', 21), (']', 22), ('a', 23), ('b', 24), ('d', 25), ('e', 26), ('f', 27), ('g', 28),
       ('i', 29), ('l', 30), ('m', 31), ('n', 32), ('r', 33), ('s', 34), ('t', 35), ('u', 36),
       ('w', 37), ('\x7b', 38), ('|', 39), ('\x7d', 40)] ++
      [(.blank, 2), (.digit, 14), (.letter, 20), (.inLine, 1)]⟩

def laterRows : List Row :=
  [closed .anyByte, ⟨some .blanks, [(.blank, 41)]⟩, ⟨some .blanks, [(.blank, 41)]⟩,
   ⟨some .anyByte, only [('=', 42)]⟩,
   ⟨some .anyByte, only [('\x22', 44), ('\\', 45)] ++ [(.plain, 43)]⟩,
   ⟨some .anyByte, only [('&', 46)]⟩, closed (.mark .leftParen), closed (.mark .rightParen),
   closed (.mark .times), closed (.mark .plus), closed (.mark .comma), closed (.mark .minus),
   ⟨some (.mark .divide), only [('/', 47), ('\\', 48)]⟩, ⟨some .digits, [(.digit, 49)]⟩,
   closed (.mark .colon), closed (.mark .semicolon), ⟨some (.mark .less), only [('=', 50)]⟩,
   ⟨some (.mark .assign), only [('=', 51)]⟩, ⟨some (.mark .greater), only [('=', 52)]⟩,
   wordRow .name [], closed (.mark .leftBracket), closed (.mark .rightBracket),
   wordRow .name [('r', 54), ('t', 55)], wordRow .name [('o', 56)], wordRow .name [('u', 57)],
   wordRow .name [('l', 58), ('n', 59)], wordRow .name [('a', 60), ('u', 61)],
   wordRow .name [('a', 62)], wordRow .name [('f', 63)], wordRow .name [('e', 64)],
   wordRow .name [('o', 65)], wordRow .name [('u', 66)], wordRow .name [('e', 67)],
   wordRow .name [('a', 68)], wordRow .name [('e', 69), ('r', 70)],
   wordRow .name [('n', 71), ('s', 72)], wordRow .name [('a', 73)], closed (.mark .leftBrace),
   ⟨some .anyByte, only [('|', 74)]⟩, closed (.mark .rightBrace), ⟨some .blanks, [(.blank, 41)]⟩,
   closed (.mark .notEqual), ⟨none, only [('\x22', 44), ('\\', 45)] ++ [(.plain, 43)]⟩,
   closed .quoted, ⟨none, [(.inLine, 43)]⟩, closed (.mark .and),
   ⟨some .lineComment, [(.inLine, 75)]⟩, ⟨none, only [('*', 76)]⟩, ⟨some .digits, [(.digit, 49)]⟩,
   closed (.mark .atMost), closed (.mark .equal), closed (.mark .atLeast), wordRow .name [],
   wordRow .name [('r', 77)], wordRow .name [('t', 78)], wordRow .name [('o', 79)],
   wordRow .name [('r', 80)], wordRow .name [('s', 81)], wordRow .name [('t', 82)],
   wordRow .name [('l', 83)], wordRow .name [('n', 84)], wordRow .name [('t', 85)],
   wordRow (.word .ifWord) [], wordRow .name [('n', 86)], wordRow .name [('v', 87)],
   wordRow .name [('m', 88)], wordRow .name [('t', 89)], wordRow .name [('y', 90)],
   wordRow .name [('x', 91)], wordRow .name [('u', 92)], wordRow .name [('t', 93)],
   wordRow .name [('e', 94)], wordRow .name [('i', 95)], closed (.mark .or),
   ⟨some .lineComment, [(.inLine, 75)]⟩, ⟨none, only [('\\', 97)] ++ [(.inLine, 96)]⟩,
   wordRow .name [('a', 98)], wordRow .name [('a', 99)], wordRow .name [('l', 100)],
   wordRow .name [('i', 101)], wordRow .name [('e', 102)], wordRow .name [('i', 103)],
   wordRow .name [('s', 104)], wordRow .name [('c', 105)], wordRow .name [('h', 106)],
   wordRow (.word .len) [], wordRow .name [('e', 107)], wordRow .name [('b', 108)],
   wordRow .name [('u', 109)], wordRow (.word .say) [], wordRow .name [('t', 110)],
   wordRow .name [('e', 111)], wordRow .name [('i', 112)], wordRow (.word .use) [],
   wordRow .name [('t', 113)], ⟨none, only [('\\', 97)] ++ [(.inLine, 96)]⟩,
   ⟨none, only [('*', 114), ('\\', 97), ('n', 115)] ++ [(.inLine, 96)]⟩, wordRow .name [('y', 116)],
   wordRow .name [('c', 117)], wordRow .name [('e', 118)], wordRow .name [('n', 119)],
   wordRow (.word .elseWord) [], wordRow .name [('t', 120)], wordRow .name [('e', 121)],
   wordRow (.word .func) [], wordRow .name [('e', 122)], wordRow (.word .move) [],
   wordRow .name [('e', 123)], wordRow .name [('r', 124)], wordRow (.word .text) [],
   wordRow (.word .trueWord) [], wordRow .name [('l', 125)], wordRow (.word .wait) [],
   ⟨none, only [('/', 126), ('\\', 97)] ++ [(.inLine, 96)]⟩,
   ⟨none, only [('\\', 97)] ++ [(.inLine, 96)]⟩, wordRow (.word .array) [],
   wordRow .name [('k', 127)], wordRow .name [('a', 128)], wordRow .name [('g', 129)],
   wordRow .name [('y', 130)], wordRow (.word .falseWord) [], wordRow .name [('r', 131)],
   wordRow .name [('r', 132)], wordRow .name [('n', 133)], wordRow (.word .untilWord) [],
   ⟨some .blockComment, only [('\\', 97)] ++ [(.inLine, 96)]⟩, wordRow (.word .attack) [],
   wordRow .name [('n', 134)], wordRow (.word .during) [], wordRow (.word .entity) [],
   wordRow (.word .gather) [], wordRow (.word .number) [], wordRow (.word .returnWord) [],
   wordRow (.word .boolean) []]

def rows : List Row :=
  startRow :: laterRows

def start : Nat := 0

def accepts? (state : Nat) : Option Pattern :=
  rows[state]?.bind Row.accepts

def next? (state : Nat) (b : UInt8) : Option Nat :=
  rows[state]?.bind fun row => ByteSet.move? row.moves b

/-- Reads on from a state that was reached after `read` bytes. `best` is what would have been taken
before: a pattern, and how many bytes. -/
def walk (state read : Nat) (best : Option (Pattern × Nat)) (bytes : Bytes) :
    Option (Pattern × Nat) :=
  let best := ((accepts? state).map (·, read)).or best
  match bytes with
  | [] => best
  | b :: rest =>
    match next? state b with
    | none => best
    | some after => walk after (read + 1) best rest

def take? (bytes : Bytes) : Option (Pattern × Nat) :=
  walk start 0 none bytes

end Scanner

end LevelScript.Checker

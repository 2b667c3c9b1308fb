import LevelScript.Checker.Grammar

set_option autoImplicit false

namespace LevelScript.Checker

inductive Pattern where
  | blanks
  | word (keyword : Keyword)
  | mark (symbol : Symbol)
  | lineComment
  | blockComment
  | name
  | digits
  | quoted
  | anyByte
  deriving DecidableEq, Repr

namespace Pattern

def byte (c : Char) : UInt8 :=
  c.toNat.toUInt8

def newline : UInt8 := byte '\n'

def quote : UInt8 := byte '\x22'

def backslash : UInt8 := byte '\\'

def isBlank (b : UInt8) : Bool :=
  b == byte ' ' || b == byte '\t' || b == byte '\r' || b == newline

def isLetter (b : UInt8) : Bool :=
  (byte 'a' ≤ b && b ≤ byte 'z') || (byte 'A' ≤ b && b ≤ byte 'Z')

def isDigit (b : UInt8) : Bool :=
  byte '0' ≤ b && b ≤ byte '9'

def isNameByte (b : UInt8) : Bool :=
  isLetter b || isDigit b || b == byte '_'

end Pattern

end LevelScript.Checker

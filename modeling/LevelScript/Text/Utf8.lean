import LevelScript.Text.Quoted

set_option autoImplicit false

namespace LevelScript.Text

abbrev Bytes := List UInt8

inductive Utf8Cause where
  | invalidStart
  | invalidContinuation
  | unexpectedEnd
  deriving DecidableEq, Repr

/-- The `count` bytes from index `first`, of which `byte` is the first, make no character. -/
structure Utf8Fault where
  cause : Utf8Cause
  first : Nat
  count : Nat
  byte : UInt8
  deriving DecidableEq, Repr

def isContinuation (b : UInt8) : Bool :=
  0x80 ≤ b && b < 0xC0

def secondByteAllowed (first second : UInt8) : Bool :=
  isContinuation second &&
    !(first == 0xE0 && second < 0xA0) && !(first == 0xED && second ≥ 0xA0) &&
    !(first == 0xF0 && second < 0x90) && !(first == 0xF4 && second ≥ 0x90)

def continuationCount? (b : UInt8) : Option Nat :=
  if b < 0x80 then some 0
  else if 0xC2 ≤ b && b < 0xE0 then some 1
  else if 0xE0 ≤ b && b < 0xF0 then some 2
  else if 0xF0 ≤ b && b < 0xF5 then some 3
  else none

def leadBits (b : UInt8) : Nat :=
  if b < 0x80 then b.toNat
  else if b < 0xE0 then b.toNat - 0xC0
  else if b < 0xF0 then b.toNat - 0xE0
  else b.toNat - 0xF0

/-- Takes up to `missing` continuation bytes into `code`; `taken` bytes have been read before. -/
def continueChar (first : UInt8) :
    (missing taken code : Nat) → Bytes → Except (Utf8Cause × Nat) Char
  | 0, _, code, _ => .ok (Char.ofNat code)
  | _ + 1, taken, _, [] => .error (.unexpectedEnd, taken)
  | missing + 1, taken, code, b :: rest =>
    if (if taken = 1 then secondByteAllowed first b else isContinuation b) then
      continueChar first missing (taken + 1) (64 * code + (b.toNat - 0x80)) rest
    else .error (.invalidContinuation, taken)

/-- The character that starts with `first`, and how many of the following bytes it takes; or the
cause of the fault and how many bytes it covers. -/
def decodeChar (first : UInt8) (rest : Bytes) : Except (Utf8Cause × Nat) (Char × Nat) :=
  match continuationCount? first with
  | none => .error (.invalidStart, 1)
  | some missing => do
    let c ← continueChar first missing 1 (leadBits first) rest
    return (c, missing)

def decodeFrom (index : Nat) (bytes : Bytes) : Except Utf8Fault (List Char) :=
  match bytes with
  | [] => .ok []
  | b :: rest =>
    match decodeChar b rest with
    | .error (cause, count) => .error ⟨cause, index, count, b⟩
    | .ok (c, taken) => do
      let others ← decodeFrom (index + 1 + taken) (rest.drop taken)
      return c :: others
termination_by bytes.length
decreasing_by simp only [List.length_cons, List.length_drop]; omega

def decodeUtf8 (bytes : Bytes) : Except Utf8Fault (List Char) :=
  decodeFrom 0 bytes

def encodeUtf8 (s : String) : Bytes :=
  s.toUTF8.data.toList

def Utf8Cause.message : Utf8Cause → String
  | .invalidStart => "invalid start byte"
  | .invalidContinuation => "invalid continuation byte"
  | .unexpectedEnd => "unexpected end of data"

def Utf8Fault.message (f : Utf8Fault) : String :=
  let place :=
    if f.count = 1 then
      "byte 0x" ++ String.ofList (hexadecimal 2 f.byte.toNat) ++ " in position " ++ Nat.repr f.first
    else
      "bytes in position " ++ Nat.repr f.first ++ "-" ++ Nat.repr (f.first + f.count - 1)
  "'utf-8' codec can't decode " ++ place ++ ": " ++ f.cause.message

end LevelScript.Text

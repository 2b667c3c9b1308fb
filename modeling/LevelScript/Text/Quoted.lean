import LevelScript.Text.Printable

set_option autoImplicit false

namespace LevelScript.Text

def singleQuote : Char := '\x27'

def doubleQuote : Char := '\x22'

def hexadecimal (width n : Nat) : List Char :=
  let digits := Nat.toDigits 16 n
  List.replicate (width - digits.length) '0' ++ digits

def escaped (quote c : Char) : List Char :=
  if c = quote ∨ c = '\\' then ['\\', c]
  else if c = '\t' then ['\\', 't']
  else if c = '\n' then ['\\', 'n']
  else if c = '\r' then ['\\', 'r']
  else if isPrintable c then [c]
  else if c.toNat < 0x100 then '\\' :: 'x' :: hexadecimal 2 c.toNat
  else if c.toNat < 0x10000 then '\\' :: 'u' :: hexadecimal 4 c.toNat
  else '\\' :: 'U' :: hexadecimal 8 c.toNat

def quoteFor (s : List Char) : Char :=
  if s.contains singleQuote && !s.contains doubleQuote then doubleQuote else singleQuote

def quotedChars (s : List Char) : List Char :=
  let quote := quoteFor s
  quote :: s.flatMap (escaped quote) ++ [quote]

def quoted (s : String) : String :=
  String.ofList (quotedChars s.toList)

end LevelScript.Text

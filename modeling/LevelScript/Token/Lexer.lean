import LevelScript.Numeral
import LevelScript.Text.Letter
import LevelScript.Token.Basic

set_option autoImplicit false

namespace LevelScript

inductive LexFault where
  | unclosedText
  | invalidCharacter (c : Char)
  | numeral (cause : NumeralFault)
  deriving DecidableEq, Repr

def LexFault.message : LexFault → String
  | .unclosedText => "String não fechada"
  | .invalidCharacter c => "Caractere inválido: " ++ String.singleton c
  | .numeral cause => cause.message

/-- What stands at the beginning of a text, and how many characters it takes. A fault takes those
that were passed before it was noticed. -/
inductive Lexeme where
  | token (token : Token) (size : Nat)
  | fault (cause : LexFault) (size : Nat)
  deriving DecidableEq, Repr

def isBlank (c : Char) : Bool :=
  c == ' ' || c == '\t' || c == '\r' || c == '\n'

def Lexeme.first (c : Char) (rest : List Char) : Lexeme :=
  if Text.isWordStart c then
    let word := c :: rest.takeWhile Text.isWordChar
    .token (.ofWord (String.ofList word)) word.length
  else if Text.isDigit c then
    let digits := c :: rest.takeWhile Text.isDigit
    match Numeral.read digits with
    | .ok n => .token (.number n) digits.length
    | .error cause => .fault (.numeral cause) digits.length
  else if c = Text.doubleQuote then
    let content := rest.takeWhile (· ≠ Text.doubleQuote)
    if content.length < rest.length then
      .token (.text (String.ofList content)) (content.length + 2)
    else .fault .unclosedText (content.length + 1)
  else
    match Symbol.first? (c :: rest) with
    | some mark => .token (.symbol mark) mark.chars.length
    | none => .fault (.invalidCharacter c) 0

structure Lexer where
  token : Token
  position : Nat
  text : List Char
  deriving DecidableEq, Repr

namespace Lexer

/-- Reads the first token of a text that begins at `position`. A fault comes with the position that
was reached. -/
def read (position : Nat) : List Char → Except (LexFault × Nat) Lexer
  | [] => .ok ⟨.endOfInput, position, []⟩
  | c :: rest =>
    if isBlank c then read (position + 1) rest
    else
      match Lexeme.first c rest with
      | .token token size => .ok ⟨token, position + size, rest.drop (size - 1)⟩
      | .fault cause size => .error (cause, position + size)

def ofSource (source : String) : Except (LexFault × Nat) Lexer :=
  read 0 source.toList

/-- The lexer one token further. At the end of the input it stays there. -/
def selectNext (lexer : Lexer) : Except (LexFault × Nat) Lexer :=
  read lexer.position lexer.text

end Lexer

inductive TokenStream where
  /-- The text ends here. -/
  | finish (position : Nat)
  /-- No token can be read here. -/
  | broken (cause : LexFault) (position : Nat)
  /-- A token that ends at `position`. -/
  | next (token : Token) (position : Nat) (rest : TokenStream)
  deriving DecidableEq, Repr

namespace TokenStream

def scan (position : Nat) (source : List Char) : TokenStream :=
  match source with
  | [] => .finish position
  | c :: rest =>
    if isBlank c then scan (position + 1) rest
    else
      match Lexeme.first c rest with
      | .token token size =>
        .next token (position + size) (scan (position + size) (rest.drop (size - 1)))
      | .fault cause size => .broken cause (position + size)
termination_by source.length
decreasing_by all_goals simp only [List.length_cons, List.length_drop]; omega

def ofSource (source : String) : TokenStream :=
  scan 0 source.toList

def length : TokenStream → Nat
  | .finish _ => 0
  | .broken _ _ => 0
  | .next _ _ rest => rest.length + 1

def tokens : TokenStream → List (Token × Nat)
  | .finish position => [(.endOfInput, position)]
  | .broken _ _ => []
  | .next token position rest => (token, position) :: rest.tokens

def fault? : TokenStream → Option LexFault
  | .finish _ => none
  | .broken cause _ => some cause
  | .next _ _ rest => rest.fault?

end TokenStream

end LevelScript

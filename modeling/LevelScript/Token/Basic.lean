import LevelScript.TypeName

set_option autoImplicit false

namespace LevelScript

inductive Keyword where
  | text
  | number
  | boolean
  | array
  | func
  | entity
  | ifWord
  | elseWord
  | untilWord
  | during
  | returnWord
  | move
  | attack
  | gather
  | use
  | say
  | wait
  | trueWord
  | falseWord
  | len
  deriving DecidableEq, Repr

namespace Keyword

def all : List Keyword :=
  [text, number, boolean, array, func, entity, ifWord, elseWord, untilWord, during, returnWord,
   move, attack, gather, use, say, wait, trueWord, falseWord, len]

def spelling : Keyword → String
  | .text => "text"
  | .number => "number"
  | .boolean => "boolean"
  | .array => "array"
  | .func => "func"
  | .entity => "entity"
  | .ifWord => "if"
  | .elseWord => "else"
  | .untilWord => "until"
  | .during => "during"
  | .returnWord => "return"
  | .move => "move"
  | .attack => "attack"
  | .gather => "gather"
  | .use => "use"
  | .say => "say"
  | .wait => "wait"
  | .trueWord => "true"
  | .falseWord => "false"
  | .len => "len"

def kind : Keyword → String
  | .text => "TEXT_TYPE"
  | .number => "NUMBER_TYPE"
  | .boolean => "BOOLEAN_TYPE"
  | .array => "ARRAY_TYPE"
  | .func => "FUNC"
  | .entity => "ENTITY"
  | .ifWord => "IF"
  | .elseWord => "ELSE"
  | .untilWord => "UNTIL"
  | .during => "DURING"
  | .returnWord => "RETURN"
  | .move => "MOVE"
  | .attack => "ATTACK"
  | .gather => "GATHER"
  | .use => "USE"
  | .say => "SAY"
  | .wait => "WAIT"
  | .trueWord => "TRUE"
  | .falseWord => "FALSE"
  | .len => "LEN"

def typeName? : Keyword → Option TypeName
  | .text => some .text
  | .number => some .number
  | .boolean => some .boolean
  | .array => some .array
  | _ => none

def ofSpelling? (word : String) : Option Keyword :=
  all.find? fun k => k.spelling = word

end Keyword

inductive Symbol where
  | and
  | or
  | equal
  | notEqual
  | atMost
  | atLeast
  | less
  | greater
  | assign
  | plus
  | minus
  | times
  | divide
  | leftParen
  | rightParen
  | leftBrace
  | rightBrace
  | leftBracket
  | rightBracket
  | colon
  | semicolon
  | comma
  deriving DecidableEq, Repr

namespace Symbol

def all : List Symbol :=
  [and, or, equal, notEqual, atMost, atLeast, less, greater, assign, plus, minus, times, divide,
   leftParen, rightParen, leftBrace, rightBrace, leftBracket, rightBracket, colon, semicolon, comma]

def chars : Symbol → List Char
  | .and => ['&', '&']
  | .or => ['|', '|']
  | .equal => ['=', '=']
  | .notEqual => ['!', '=']
  | .atMost => ['<', '=']
  | .atLeast => ['>', '=']
  | .less => ['<']
  | .greater => ['>']
  | .assign => ['=']
  | .plus => ['+']
  | .minus => ['-']
  | .times => ['*']
  | .divide => ['/']
  | .leftParen => ['(']
  | .rightParen => [')']
  | .leftBrace => ['\x7b']
  | .rightBrace => ['\x7d']
  | .leftBracket => ['[']
  | .rightBracket => [']']
  | .colon => [':']
  | .semicolon => [';']
  | .comma => [',']

def spelling (s : Symbol) : String :=
  String.ofList s.chars

def kind : Symbol → String
  | .and => "AND"
  | .or => "OR"
  | .equal => "EQ"
  | .notEqual => "NE"
  | .atMost => "LE"
  | .atLeast => "GE"
  | .less => "LT"
  | .greater => "GT"
  | .assign => "ASSIGN"
  | .plus => "PLUS"
  | .minus => "MINUS"
  | .times => "TIMES"
  | .divide => "DIVIDE"
  | .leftParen => "LPAREN"
  | .rightParen => "RPAREN"
  | .leftBrace => "LBRACE"
  | .rightBrace => "RBRACE"
  | .leftBracket => "LBRACKET"
  | .rightBracket => "RBRACKET"
  | .colon => "COLON"
  | .semicolon => "SEMICOLON"
  | .comma => "COMMA"

def first? (source : List Char) : Option Symbol :=
  all.find? fun s => s.chars.isPrefixOf source

end Symbol

inductive Token where
  | identifier (name : String)
  | number (value : Nat)
  | text (value : String)
  | keyword (word : Keyword)
  | symbol (mark : Symbol)
  | endOfInput
  deriving DecidableEq, Repr

namespace Token

def kind : Token → String
  | .identifier _ => "IDENTIFIER"
  | .number _ => "NUMBER"
  | .text _ => "STRING"
  | .keyword word => word.kind
  | .symbol mark => mark.kind
  | .endOfInput => "EOF"

def ofWord (word : String) : Token :=
  match Keyword.ofSpelling? word with
  | some k => .keyword k
  | none => .identifier word

end Token

end LevelScript

import LevelScript.Parser.Command

set_option autoImplicit false

namespace LevelScript

inductive Construct where
  | program
  | variableDeclaration
  | functionDeclaration
  | entityDeclaration
  | command
  | block
  | conditional
  | loop
  | result
  | action
  | assignment (name : String)
  | elementAssignment (name : String)
  | expression
  | relation
  | sum
  | term
  | factor
  | arrayLiteral
  | call (name : String)
  | access (name : String)
  | lengthCall
  deriving DecidableEq, Repr

def Construct.parser {σ : Type} [Tape σ] (bound : Nat) : Construct → Parser σ Node
  | .program => Parser.program bound
  | .variableDeclaration => Parser.variableDeclaration bound
  | .functionDeclaration => Parser.functionDeclaration bound
  | .entityDeclaration => Parser.entityDeclaration bound
  | .command => Parser.command bound
  | .block => Parser.block bound
  | .conditional => Parser.conditional bound
  | .loop => Parser.loop bound
  | .result => Parser.result bound
  | .action => Parser.action bound
  | .assignment name => Parser.assignment bound name
  | .elementAssignment name => Parser.elementAssignment bound name
  | .expression => Parser.expression bound
  | .relation => Parser.relationOver bound (Parser.factor bound)
  | .sum => Parser.sumOver bound (Parser.factor bound)
  | .term => Parser.termOver bound (Parser.factor bound)
  | .factor => Parser.factor bound
  | .arrayLiteral => Parser.arrayLiteral bound (Parser.expression bound)
  | .call name => Parser.call bound name
  | .access name => Parser.access bound name
  | .lengthCall => Parser.lengthCall

/-- A source fails at its first token, before parsing begins, or during the parsing. -/
inductive SourceFault where
  | first (cause : LexFault)
  | parsing (failure : ParseFailure)
  deriving DecidableEq, Repr

def SourceFault.message : SourceFault → String
  | .first cause => cause.message
  | .parsing failure => failure.fault.message

/-- The bound is more than any parse of what is left on the tape can use. -/
def Construct.parseAt {σ : Type} [Tape σ] (construct : Construct) (built : Nat) (tape : σ) :
    Except ParseFailure (Node × ParseState σ) :=
  construct.parser (Tape.room tape + 3) ⟨tape, built⟩

def Construct.parseFrom {σ : Type} [Tape σ] (construct : Construct) (built : Nat)
    (first : Except (LexFault × Nat) σ) : Except SourceFault (Node × ParseState σ) :=
  match first with
  | .error (cause, _) => .error (.first cause)
  | .ok tape =>
    match construct.parseAt built tape with
    | .error failure => .error (.parsing failure)
    | .ok parsed => .ok parsed

def Construct.parse (construct : Construct) (built : Nat) (source : String) :
    Except SourceFault (Node × ParseState Lexer) :=
  construct.parseFrom built (Lexer.ofSource source)

def Construct.parseStream (construct : Construct) (built : Nat) (stream : TokenStream) :
    Except SourceFault (Node × ParseState Cursor) :=
  construct.parseFrom built (Cursor.ofStream stream)

end LevelScript

import LevelScript.Checker.Line
import LevelScript.Checker.Table

/-!
# The automaton

A stack of states grows by shifts and shrinks by reductions, which give the lines of the report. A
row with shifts has the next lexeme read before anything is done; where it cannot be shifted, the
row's reduction is made, and an error shows only when there is none. The stack is bounded.
-/

set_option autoImplicit false

namespace LevelScript.Checker

open Text (Bytes encodeUtf8)

/-- A state on the stack with the text of the terminal that led to it; a nonterminal has none. -/
structure Frame where
  state : Nat
  text : Bytes
  deriving DecidableEq, Repr

structure Configuration where
  /-- The top frame comes first. -/
  stack : List Frame
  feed : Feed
  /-- The text of the lexeme that was read last. -/
  last : Bytes
  /-- The last line comes first. -/
  lines : List Line
  deriving DecidableEq, Repr

inductive Halt where
  | accepted
  | invalidByte (byte : UInt8)
  | misplaced (text : Bytes)
  /-- The stack had no more room after `text` was read. -/
  | stackFull (text : Bytes)
  /-- The table had no entry, or the steps were used up. -/
  | stuck
  deriving DecidableEq, Repr

inductive StepResult where
  | next (configuration : Configuration)
  | halt (reason : Halt)
  deriving DecidableEq, Repr

namespace Configuration

def stackLimit : Nat := 10000

def start (feed : Feed) : Configuration :=
  ⟨[⟨Table.start, []⟩], feed, [], []⟩

def reduce (c : Configuration) (production : Production) : StepResult :=
  let size := production.body.length
  match c.stack.drop size with
  | [] => .halt .stuck
  | base :: below =>
    match (Table.row? base.state).bind fun row => row.goto? production.head with
    | none => .halt .stuck
    | some state =>
      let texts := ((c.stack.take size).map Frame.text).reverse
      .next { c with
        stack := ⟨state, []⟩ :: base :: below
        lines := (production.line? texts).toList ++ c.lines }

/-- What is done in a row when a lexeme with this terminal and text stands next, and `rest` is the
feed after it. -/
def act (c : Configuration) (row : TableRow) (terminal : Terminal) (text : Bytes) (rest : Feed) :
    StepResult :=
  match row.shift? terminal with
  | some state =>
    .next { c with stack := ⟨state, text⟩ :: c.stack, feed := rest, last := text }
  | none =>
    match row.reduction with
    | some production => reduce { c with last := text } production
    | none => .halt (.misplaced text)

def step (c : Configuration) : StepResult :=
  match c.stack with
  | [] => .halt .stuck
  | top :: _ =>
    if stackLimit ≤ c.stack.length then .halt (.stackFull c.last)
    else if top.state = Table.final then .halt .accepted
    else
      match Table.row? top.state with
      | none => .halt .stuck
      | some row =>
        match row.shifts, row.reduction with
        | [], some production => c.reduce production
        | _, _ =>
          match c.feed with
          | .finish => c.act row .endOfInput [] .finish
          | .invalid byte => .halt (.invalidByte byte)
          | .next lexeme rest => c.act row lexeme.terminal lexeme.text rest

def run : (steps : Nat) → Configuration → Halt × Configuration
  | 0, c => (.stuck, c)
  | steps + 1, c =>
    match c.step with
    | .halt reason => (reason, c)
    | .next after => run steps after

end Configuration

structure Verdict where
  halt : Halt
  lines : List Line
  deriving DecidableEq, Repr

namespace Verdict

/-- The verdict on a feed. A lexeme is the cause of a bounded number of steps. -/
def ofFeed (feed : Feed) : Verdict :=
  let (halt, c) := Configuration.run (64 * (feed.length + 2)) (.start feed)
  ⟨halt, c.lines.reverse⟩

def ofBytes (bytes : Bytes) : Verdict :=
  ofFeed (.ofBytes bytes)

def closingLine? : Halt → Option String
  | .accepted => some "Análise sintática concluída com sucesso!"
  | .invalidByte _ => none
  | .misplaced _ | .stackFull _ | .stuck => some "Falha na análise sintática."

def printed (lines : List Bytes) : Bytes :=
  lines.flatMap (· ++ [Pattern.newline])

def output (verdict : Verdict) : Bytes :=
  printed ([encodeUtf8 "Iniciando análise do arquivo..."] ++ verdict.lines.map Line.bytes ++
    (closingLine? verdict.halt).toList.map encodeUtf8)

def complaint (cause : String) (text : Bytes) : Bytes :=
  encodeUtf8 ("Erro sintático: " ++ cause ++ " no token '") ++ Lexeme.shown text ++ encodeUtf8 "'"

def complaints (verdict : Verdict) : Bytes :=
  match verdict.halt with
  | .accepted | .stuck => []
  | .invalidByte byte =>
    printed [encodeUtf8 "Erro léxico: caractere inválido '" ++ [byte] ++ encodeUtf8 "'"]
  | .misplaced text => printed [complaint "syntax error" text]
  | .stackFull text => printed [complaint "memory exhausted" text]

def exitCode (verdict : Verdict) : Nat :=
  if verdict.halt = .accepted then 0 else 1

end Verdict

end LevelScript.Checker

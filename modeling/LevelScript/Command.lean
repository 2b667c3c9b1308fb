import LevelScript.Folder
import LevelScript.Listing
import LevelScript.Session
import LevelScript.Text.Newline

set_option autoImplicit false

namespace LevelScript

open Text (Bytes)

inductive Exit where
  | code (code : Nat)
  /-- Stopped by what stands at the beginning of the source. -/
  | lexical (cause : LexFault)
  /-- Stopped because the listing cannot be written to this path. -/
  | unwritable (path : String) (cause : FileFault)
  /-- Still at a loop after all the rounds that were allowed. -/
  | unfinished
  deriving DecidableEq, Repr

inductive LoadFault where
  | file (cause : FileFault)
  | encoding (cause : Text.Utf8Fault)
  deriving DecidableEq, Repr

def LoadFault.message (path : String) : LoadFault → String
  | .file cause => cause.message path
  | .encoding cause => cause.message

namespace Command

def load (content : Except FileFault Bytes) : Except LoadFault String :=
  match content with
  | .error cause => .error (.file cause)
  | .ok bytes =>
    match Text.decodeUtf8 bytes with
    | .error cause => .error (.encoding cause)
    | .ok chars => .ok (String.ofList (Text.unifyNewlines chars))

/-- What has happened when the command stops at one of its stages, and how it exits then. -/
abbrev Halt := List Event × Exit

def complaint (events : List Event) (text : String) : Halt :=
  (events ++ [.line text], .code 1)

def parse (path : String) (content : Except FileFault Bytes) : Except Halt Node :=
  match load content with
  | .error fault =>
    .error (complaint [] ("Erro ao abrir arquivo " ++ path ++ ": " ++ fault.message path))
  | .ok source =>
    match Construct.program.parse 0 (Text.removeComments source) with
    | .error (.first cause) => .error ([], .lexical cause)
    | .error fault => .error (complaint [] fault.message)
    | .ok (node, _) => .ok node

def evaluate (titles : Titles) (node : Node) : Except Halt (List Event × Forest) :=
  match Session.start.evaluate titles node with
  | (.done _, events, after) => .ok (events, after.forest)
  | (.fault cause, events, _) => .error (complaint events cause.message)
  | (.returned _, events, _) => .error (complaint events titles.result)
  | (.tooDeep, events, _) => .error (complaint events "maximum recursion depth exceeded")
  | (.unfinished, events, _) => .error (events, .unfinished)

def generate (node : Node) (forest : Forest) (events : List Event) (instructions : List String) :
    Except Halt (List String) :=
  match node.generate forest instructions with
  | .ok generated => .ok generated
  | .error cause =>
    .error (complaint events ("Erro durante geração de código: " ++ cause.message))

def respond (titles : Titles) (path : String) (content : Except FileFault Bytes)
    (instructions : List String) : Except Halt (List Event × List String) := do
  let node ← parse path content
  let (events, forest) ← evaluate titles node
  return (events, ← generate node forest events instructions)

def listingPath (path : String) : String :=
  stem path ++ ".asm"

def usage : String :=
  "Uso: python3 main.py <arquivo.level>"

structure Response where
  events : List Event
  exit : Exit
  folder : Folder
  instructions : List String
  deriving Repr

def run (titles : Titles) (arguments : List String) (folder : Folder)
    (instructions : List String) : Response :=
  match arguments with
  | [] => ⟨[.line usage], .code 1, folder, instructions⟩
  | path :: _ =>
    match respond titles path (folder.read path) instructions with
    | .error (events, exit) => ⟨events, exit, folder, instructions⟩
    | .ok (events, generated) =>
      let target := listingPath path
      match folder.write target (Text.encodeUtf8 (Listing.render generated)) with
      | .ok written => ⟨events, .code 0, written, generated⟩
      | .error cause => ⟨events, .unwritable target cause, folder, generated⟩

end Command

end LevelScript

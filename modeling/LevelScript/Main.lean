import LevelScript.Command

set_option autoImplicit false

namespace LevelScript.Main

open Text (Bytes)

def fileFault : IO.Error → FileFault
  | .inappropriateType _ _ details =>
    if details = "not a directory" then .notFolder else .isFolder
  | .invalidArgument .. => .nameTooLong
  | _ => .missing

def readFile (path : String) : IO (Except FileFault Bytes) := do
  if path.toList.contains '\x00' then return .error .nullCharacter
  try
    return .ok (← IO.FS.readBinFile path).data.toList
  catch cause => return .error (fileFault cause)

def perform : Event → IO Unit
  | .line text => IO.println text
  | .wait duration => IO.sleep (min (1000 * duration.count) 0xFFFFFFFF).toUInt32

def finish : Exit → IO UInt32
  | .code code => return code.toUInt32
  | .unfinished => return 1
  | .lexical cause => do
    IO.eprintln cause.message
    return 1
  | .unwritable path cause => do
    IO.eprintln (cause.message path)
    return 1

def run (arguments : List String) : IO UInt32 := do
  match arguments with
  | [] =>
    IO.println Command.usage
    return 1
  | path :: _ =>
    match Command.respond .numbered path (← readFile path) [] with
    | .error (events, exit) =>
      events.forM perform
      finish exit
    | .ok (events, instructions) =>
      events.forM perform
      let target := Command.listingPath path
      try
        IO.FS.writeFile target (Listing.render instructions)
        return 0
      catch cause => finish (.unwritable target (fileFault cause))

end LevelScript.Main

def main (arguments : List String) : IO UInt32 :=
  LevelScript.Main.run arguments

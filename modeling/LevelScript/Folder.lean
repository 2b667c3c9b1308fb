import LevelScript.Text.Utf8

/-!
# Files and folders

A path is walked from the left, from the root if it begins with a slash and else from the working
folder: a dot stays, two dots go up, but not from the root, and a component under a file is a fault.
Names and whole paths have a greatest length, in bytes.
-/

set_option autoImplicit false

namespace LevelScript

open Text (Bytes)

inductive FileFault where
  | missing
  | notFolder
  | isFolder
  | nameTooLong
  | nullCharacter
  deriving DecidableEq, Repr

def FileFault.message (path : String) : FileFault → String
  | .missing => "[Errno 2] No such file or directory: " ++ Text.quoted path
  | .notFolder => "[Errno 20] Not a directory: " ++ Text.quoted path
  | .isFolder => "[Errno 21] Is a directory: " ++ Text.quoted path
  | .nameTooLong => "[Errno 36] File name too long: " ++ Text.quoted path
  | .nullCharacter => "embedded null byte"

abbrev Path := List String

namespace Path

def ofString (path : String) : Path :=
  (path.toList.splitOn '/').map String.ofList

def toString (path : Path) : String :=
  String.intercalate "/" path

end Path

/-- A path without the extension of its last component. Dots at the beginning of the component
belong to its name. -/
def stemChars (path : List Char) : List Char :=
  let backward := path.reverse
  match backward.dropWhile fun c => c ≠ '.' ∧ c ≠ '/' with
  | '.' :: before =>
    if (before.takeWhile (· ≠ '/')).any (· ≠ '.') then before.reverse else path
  | _ => path

def stem (path : String) : String :=
  String.ofList (stemChars path.toList)

/-- All files, by the components of their paths from the root, and the working folder. A folder
exists if a file lies in it, or if the working folder is it or lies in it. -/
structure Folder where
  working : Path
  files : List (Path × Bytes)
  deriving Repr

inductive Place where
  | file (path : Path)
  | folder
  /-- There is nothing, but a file can be made. -/
  | vacant (path : Path)
  deriving Repr

namespace Folder

def file? (folder : Folder) (path : Path) : Option Bytes :=
  (folder.files.find? fun entry => entry.1 = path).map (·.2)

def isFolder (folder : Folder) (path : Path) : Bool :=
  path.isPrefixOf folder.working ||
    folder.files.any fun entry => path.isPrefixOf entry.1 && path.length < entry.1.length

def longestName : Nat := 255

def longestPath : Nat := 4095

def walk (folder : Folder) : (base : Path) → List String → Except FileFault Place
  | _, [] => .ok .folder
  | base, component :: rest =>
    if component = "" ∨ component = "." then folder.walk base rest
    else if component = ".." then folder.walk base.dropLast rest
    else if longestName < component.utf8ByteSize then .error .nameTooLong
    else
      let path := base ++ [component]
      if (folder.file? path).isSome then
        if rest.isEmpty then .ok (.file path) else .error .notFolder
      else if folder.isFolder path then folder.walk path rest
      else if rest.isEmpty then .ok (.vacant path)
      else .error .missing

def locate (folder : Folder) (path : String) : Except FileFault Place :=
  if path.toList.contains '\x00' then .error .nullCharacter
  else if longestPath < path.utf8ByteSize then .error .nameTooLong
  else if path = "" then .error .missing
  else if path.toList.head? = some '/' then folder.walk [] (Path.ofString path)
  else folder.walk folder.working (Path.ofString path)

def read (folder : Folder) (path : String) : Except FileFault Bytes := do
  match ← folder.locate path with
  | .file path => return (folder.file? path).getD []
  | .folder => throw .isFolder
  | .vacant _ => throw .missing

def put (folder : Folder) (path : Path) (content : Bytes) : Folder :=
  if (folder.file? path).isSome then
    { folder with
      files := folder.files.map fun entry => if entry.1 = path then (path, content) else entry }
  else { folder with files := folder.files ++ [(path, content)] }

def write (folder : Folder) (path : String) (content : Bytes) : Except FileFault Folder := do
  match ← folder.locate path with
  | .file path => return folder.put path content
  | .vacant path => return folder.put path content
  | .folder => throw .isFolder

def changes (before after : Folder) : List (Path × Bytes) :=
  after.files.filter fun entry => before.file? entry.1 ≠ some entry.2

end Folder

end LevelScript

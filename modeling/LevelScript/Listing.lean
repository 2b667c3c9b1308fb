import LevelScript.Fault

set_option autoImplicit false

namespace LevelScript

namespace Listing

def append (instructions : List String) (line : String) : List String :=
  instructions ++ [line]

def beginning : List String :=
  ["section .data", "  format_out: db \"%d\", 10, 0", "  format_in: db \"%d\", 0",
   "  scan_int: dd 0", "", "section .text", "  extern printf", "  extern scanf",
   "  global _start", "", "_start:", "  push ebp", "  mov ebp, esp", ""]

def ending : List String :=
  ["  mov esp, ebp", "  pop ebp", "  mov eax, 1", "  xor ebx, ebx", "  int 0x80"]

def lines (texts : List String) : String :=
  String.join (texts.map (· ++ "\n"))

def render (instructions : List String) : String :=
  lines beginning ++ String.intercalate "\n" instructions ++ "\n" ++ lines ending

end Listing

/-- The instructions after those of a tree, which is generated with the scopes that its evaluation
has left. No tree has instructions of its own. -/
def Node.generate (_ : Node) (_ : Forest) (instructions : List String) :
    Except Fault (List String) :=
  .ok instructions

end LevelScript

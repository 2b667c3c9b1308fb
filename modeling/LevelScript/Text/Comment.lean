/-!
# Comments

Comments are removed in two passes that know nothing of string literals: first every `//` with the
rest of its line, then every `/*` through the first `*/` after it. An unclosed `/*` stays.
-/

set_option autoImplicit false

namespace LevelScript.Text

/-- Removes line comments; `inside` says that one is open. -/
def dropLineComments : (inside : Bool) → List Char → List Char
  | _, [] => []
  | true, '\n' :: rest => '\n' :: dropLineComments false rest
  | true, _ :: rest => dropLineComments true rest
  | false, '/' :: '/' :: rest => dropLineComments true rest
  | false, c :: rest => c :: dropLineComments false rest

def closesBlock : List Char → Bool
  | [] => false
  | '*' :: '/' :: _ => true
  | _ :: rest => closesBlock rest

/-- Removes block comments; `inside` says that one is open. After an unclosed `/*` no other can
close, so the rest is kept. -/
def dropBlockComments : (inside : Bool) → List Char → List Char
  | _, [] => []
  | true, '*' :: '/' :: rest => dropBlockComments false rest
  | true, _ :: rest => dropBlockComments true rest
  | false, '/' :: '*' :: rest =>
    if closesBlock rest then dropBlockComments true rest else '/' :: '*' :: rest
  | false, c :: rest => c :: dropBlockComments false rest

def uncommented (source : List Char) : List Char :=
  dropBlockComments false (dropLineComments false source)

def removeComments (source : String) : String :=
  String.ofList (uncommented source.toList)

end LevelScript.Text

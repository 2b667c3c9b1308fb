import LevelScript.Proofs.Checker.Derivation

set_option autoImplicit false

namespace LevelScript.Checker

open Text (Bytes)

inductive Tree where
  | leaf (lexeme : Lexeme)
  | node (production : Production) (children : List Tree)
  deriving Repr

namespace Tree

def symbol : Tree → GrammarSymbol
  | .leaf lexeme => .terminal lexeme.terminal
  | .node production _ => .nonterminal production.head

def text : Tree → Bytes
  | .leaf lexeme => lexeme.text
  | .node _ _ => []

mutual

def lexemes : Tree → List Lexeme
  | .leaf lexeme => [lexeme]
  | .node _ children => allLexemes children

def allLexemes : List Tree → List Lexeme
  | [] => []
  | tree :: trees => tree.lexemes ++ allLexemes trees

end

/-- What was written for the first of the trees that is a leaf with the terminal. -/
def written (t : Terminal) (trees : List Tree) : Bytes :=
  ((trees.find? fun tree => tree.symbol = .terminal t).map text).getD []

def line? (production : Production) (children : List Tree) : Option Line :=
  let name := written .identifier children
  let content := Lexeme.content (written .text children)
  let count := Lexeme.number (written .number children)
  match production with
  | .variableDeclaration => some (.variable name)
  | .functionDeclaration => some (.function name)
  | .entityDeclaration => some (.entity name)
  | .assignment => some (.assignment name)
  | .elementAssignment => some (.elementAssignment name)
  | .conditional => some .conditional
  | .loopUntil => some .loopUntil
  | .loopDuring => some .loopDuring
  | .result => some .result
  | .actionMove => some .move
  | .actionAttack => some .attack
  | .actionGather => some (.gather name)
  | .actionUse => some (.use name)
  | .actionSay => some (.say content)
  | .actionWait => some (.wait count)
  | .access => some (.access name)
  | .lengthCall => some (.length name)
  | .literalNumber => some (.number count)
  | .literalText => some (.text content)
  | .arrayLiteral => some .array
  | .booleanTrue => some (.boolean true)
  | .booleanFalse => some (.boolean false)
  | _ => none

mutual

def lines : Tree → List Line
  | .leaf _ => []
  | .node production children =>
    allLines children ++ (line? production children).toList

def allLines : List Tree → List Line
  | [] => []
  | tree :: trees => tree.lines ++ allLines trees

end

/-- The children of each node are what its production has as its body. -/
inductive Valid : Tree → Prop where
  | leaf (lexeme : Lexeme) : Valid (.leaf lexeme)
  | node {production : Production} {children : List Tree} :
      children.map symbol = production.body → (∀ child ∈ children, Valid child) →
      Valid (.node production children)

structure OfProgram (tree : Tree) : Prop where
  valid : tree.Valid
  symbol : tree.symbol = .nonterminal .program

theorem written_eq_lookup (t : Terminal) (trees : List Tree) :
    written t trees =
      (((trees.map symbol).zip (trees.map text)).lookup (.terminal t)).getD [] := by
  rw [written]
  congr 1
  induction trees with
  | nil => rfl
  | cons tree trees ih =>
    by_cases h : tree.symbol = .terminal t
    · simp [h]
    · have hne : (GrammarSymbol.terminal t == tree.symbol) = false := by simpa using Ne.symm h
      simp [List.lookup_cons, h, hne, ih]

theorem line?_eq {production : Production} {children : List Tree}
    (h : children.map symbol = production.body) :
    line? production children = production.line? (children.map text) := by
  have hlength : (children.map text).length = production.body.length := by
    rw [List.length_map, ← h, List.length_map]
  have hwritten (t : Terminal) :
      written t children =
        ((production.body.zip (children.map text)).lookup (.terminal t)).getD [] := by
    rw [written_eq_lookup, h]
  simp only [line?, hwritten]
  generalize children.map text = texts at hlength
  rcases texts with _ | ⟨first, _ | ⟨second, _ | ⟨third, rest⟩⟩⟩ <;> cases production <;>
    first | rfl | cases hlength

end Tree

open LevelScript.Checker.Tree (allLexemes allLines)

theorem parses_trees {trees : List Tree}
    (h : ∀ tree ∈ trees, Parses [tree.symbol] tree.lexemes [tree.text] tree.lines) :
    Parses (trees.map Tree.symbol) (allLexemes trees) (trees.map Tree.text) (allLines trees) := by
  induction trees with
  | nil => exact .nil
  | cons tree trees ih =>
    obtain ⟨htree, htrees⟩ := List.forall_mem_cons.1 h
    exact htree.append (ih htrees)

theorem Tree.Valid.parses {tree : Tree} (h : tree.Valid) :
    Parses [tree.symbol] tree.lexemes [tree.text] tree.lines := by
  induction h with
  | leaf lexeme => exact .terminal .nil
  | @node production children hbody _ ih =>
    have hchildren := parses_trees ih
    rw [hbody] at hchildren
    have hnode := Parses.production hchildren .nil
    rw [List.append_nil, List.append_nil, ← Tree.line?_eq hbody] at hnode
    exact hnode

theorem Parses.trees {symbols : List GrammarSymbol} {w : List Lexeme} {texts : List Bytes}
    {lines : List Line} (h : Parses symbols w texts lines) :
    ∃ trees : List Tree, (∀ tree ∈ trees, tree.Valid) ∧ trees.map Tree.symbol = symbols ∧
      allLexemes trees = w ∧ trees.map Tree.text = texts ∧ allLines trees = lines := by
  induction h with
  | nil => exact ⟨[], nofun, rfl, rfl, rfl, rfl⟩
  | @terminal lexeme symbols w texts lines _ ih =>
    obtain ⟨trees, hvalid, rfl, rfl, rfl, rfl⟩ := ih
    exact ⟨.leaf lexeme :: trees, List.forall_mem_cons.2 ⟨.leaf lexeme, hvalid⟩, rfl, rfl, rfl, rfl⟩
  | @production production symbols u w parts texts inner lines _ _ ihbody ih =>
    obtain ⟨children, hchildren, hbody, rfl, rfl, rfl⟩ := ihbody
    obtain ⟨trees, hvalid, rfl, rfl, rfl, rfl⟩ := ih
    refine ⟨.node production children :: trees,
      List.forall_mem_cons.2 ⟨.node hbody hchildren, hvalid⟩, rfl, rfl, rfl, ?_⟩
    rw [← Tree.line?_eq hbody]
    exact List.append_assoc ..

theorem Parses.tree {w : List Lexeme} {texts : List Bytes} {lines : List Line}
    (h : Parses [.nonterminal .program] w texts lines) :
    ∃ tree : Tree, tree.OfProgram ∧ tree.lexemes = w ∧ tree.lines = lines := by
  obtain ⟨trees, hvalid, hsymbols, rfl, _, rfl⟩ := h.trees
  obtain ⟨tree, rfl, hsymbol⟩ := List.map_eq_singleton_iff.1 hsymbols
  refine ⟨tree, ⟨hvalid tree (List.mem_singleton.2 rfl), hsymbol⟩, ?_, ?_⟩
  · exact (List.append_nil _).symm
  · exact (List.append_nil _).symm

end LevelScript.Checker

import LevelScript.Checker.Line
import LevelScript.Proofs.Parser.Reading

set_option autoImplicit false

namespace LevelScript

open Checker (Line Terminal)
open Text (encodeUtf8)

namespace Node

theorem sizeOf_lt_of_mem_children {child node : Node} (h : child ∈ node.children) :
    sizeOf child < sizeOf node := by
  cases node with
  | blank | number | boolean | text | literal | identifier | skip => cases h
  | array _ parts | call _ _ parts | function _ _ _ parts | block _ parts | action _ _ parts =>
    have hlt : sizeOf child < sizeOf parts := List.sizeOf_lt_of_mem h
    simp only [array.sizeOf_spec, call.sizeOf_spec, function.sizeOf_spec, block.sizeOf_spec,
      action.sizeOf_spec]
    omega
  | declaration _ _ _ value | conditional _ _ _ value | result _ value =>
    cases value <;> simp [children] at h ⊢ <;> grind
  | _ =>
    simp [children] at h ⊢
    grind

def postorder (node : Node) : List Node :=
  node.children.attach.flatMap (fun child => child.1.postorder) ++ [node]
termination_by sizeOf node
decreasing_by exact sizeOf_lt_of_mem_children child.2

theorem postorder_eq (node : Node) :
    node.postorder = node.children.flatMap postorder ++ [node] := by
  rw [postorder, List.flatMap_subtype (g := postorder) (fun _ _ => rfl), List.unattach_attach]

def declarationLine? : Node → Option Line
  | .declaration _ _ label (some _) => some (.variable (encodeUtf8 (label.name?.getD "")))
  | .function _ name _ _ => some (.function (encodeUtf8 name))
  | _ => none

def declarations (node : Node) : List Line :=
  node.postorder.filterMap declarationLine?

theorem declarations_eq (node : Node) :
    node.declarations = node.children.flatMap declarations ++ node.declarationLine?.toList := by
  have hself : [node].filterMap declarationLine? = node.declarationLine?.toList := by
    cases hline : node.declarationLine? <;> simp [hline]
  rw [declarations, postorder_eq, List.filterMap_append, List.filterMap_flatMap, hself]
  rfl

@[simp] theorem declarations_identifier (id : Nat) (name : String) :
    (Node.identifier id name).declarations = [] := by
  rw [declarations_eq]
  rfl

end Node

/-- Categories without a command or a declaration with a value among their parts. -/
def Category.quiet : Category → Bool
  | .level _ | .parameter | .items _ | .optionalItems _ => true
  | _ => false

theorem Derives.item_append {item : Item} {u v : List Terminal} (hu : Derives (.items item) u)
    (hv : Derives item.category v) : Derives (.items item) (u ++ .symbol .comma :: v) := by
  generalize hcategory : Category.items item = category at hu
  induction hu with
  | itemLast h =>
    cases hcategory
    exact .itemNext h (.itemLast hv)
  | itemNext h _ _ ih =>
    cases hcategory
    rw [List.append_assoc]
    exact .itemNext h (ih rfl)
  | _ => cases hcategory

namespace Reads

theorem append {category : Category} {n m k : Nat} {u v : List Token} {nodes more : List Node}
    (hc : category ∈ [.program, .members, .commands]) (hu : Reads category n u nodes m)
    (hv : Reads category m v more k) : Reads category n (u ++ v) (nodes ++ more) k := by
  induction hu with
  | programEnd | membersEnd | commandsEnd => exact hv
  | programNext hone h _ _ ih =>
    rw [List.append_assoc]
    exact .programNext hone h (ih hc hv)
  | membersNext hone h _ _ ih =>
    rw [List.append_assoc]
    exact .membersNext hone h (ih hc hv)
  | commandsSkip _ ih => exact .commandsSkip (ih hc hv)
  | commandsNext hne h _ _ ih =>
    rw [List.append_assoc]
    exact .commandsNext hne h (ih hc hv)
  | _ => simp at hc

theorem declarations_eq_nil {category : Category} {n m : Nat} {tokens : List Token}
    {nodes : List Node} (h : Reads category n tokens nodes m) (hc : category.quiet = true) :
    nodes.flatMap Node.declarations = [] := by
  have hnode {node : Node} (hchildren : node.children.flatMap Node.declarations = [])
      (hline : node.declarationLine? = none) : [node].flatMap Node.declarations = [] := by
    rw [List.flatMap_singleton, Node.declarations_eq, hchildren, hline]
    rfl
  induction h with
  | parameter _ => exact hnode (by simp [Node.children]) rfl
  | operand _ _ ih => exact ih rfl
  | binary _ _ _ ihu ihv =>
    have hu := ihu rfl
    have hv := ihv rfl
    simp only [List.flatMap_singleton] at hu hv
    exact hnode (by simp [Node.children, hu, hv]) rfl
  | signed _ _ ih => exact hnode (ih rfl) rfl
  | number | text | trueFactor | falseFactor | name => exact hnode rfl rfl
  | group _ ih => exact ih rfl
  | array _ ih | call _ ih => exact hnode (ih rfl) rfl
  | access _ ih => exact hnode (by simpa [Node.children] using ih rfl) rfl
  | length => exact hnode (by simp [Node.children]) rfl
  | noItems => rfl
  | someItems _ ih => exact ih rfl
  | @itemLast item _ _ _ _ _ ih => exact ih (by cases item <;> rfl)
  | @itemNext item _ _ _ _ _ _ _ _ _ ihu ihv =>
    have hu := ihu (by cases item <;> rfl)
    rw [List.flatMap_singleton] at hu
    rw [List.flatMap_cons, hu, ihv rfl]
    rfl
  | _ => cases hc

end Reads

/-- The tokens can be read as the category, with these lines for what they declare, however many
nodes have been numbered before. -/
def Yields (category : Category) (tokens : List Token) (lines : List Line) : Prop :=
  ∀ n, ∃ nodes m, Reads category n tokens nodes m ∧ nodes.flatMap Node.declarations = lines

namespace Yields

variable {category : Category} {u v w : List Token} {j k : List Line} {name : String}
  {word : Keyword} {type : TypeName}

theorem single (h : Yields category u k) (hc : category.single = true) (n : Nat) :
    ∃ node m, Reads category n u [node] m ∧ node.declarations = k := by
  obtain ⟨nodes, m, hreads, rfl⟩ := h n
  obtain ⟨node, rfl⟩ := hreads.single hc
  exact ⟨node, m, hreads, by simp⟩

theorem of_node (h : ∀ n, ∃ node m, Reads category n u [node] m ∧
    node.children.flatMap Node.declarations ++ node.declarationLine?.toList = k) :
    Yields category u k := by
  intro n
  obtain ⟨node, m, hreads, hlines⟩ := h n
  refine ⟨[node], m, hreads, ?_⟩
  rw [List.flatMap_singleton, Node.declarations_eq, hlines]

theorem of_derives (h : Derives category (u.map Token.terminal)) (hc : category.quiet = true) :
    Yields category u [] := by
  intro n
  obtain ⟨nodes, m, hreads⟩ := h.reads _ rfl n
  exact ⟨nodes, m, hreads, hreads.declarations_eq_nil hc⟩

theorem append (hc : category ∈ [.program, .members, .commands]) (hu : Yields category u j)
    (hv : Yields category v k) : Yields category (u ++ v) (j ++ k) := by
  intro n
  obtain ⟨nodes, m, hnodes, rfl⟩ := hu n
  obtain ⟨more, i, hmore, rfl⟩ := hv m
  exact ⟨nodes ++ more, i, hnodes.append hc hmore, List.flatMap_append⟩

theorem empty (hc : category.nullable = true) : Yields category [] [] := by
  intro n
  refine ⟨[], n, ?_, rfl⟩
  cases category with
  | program => exact .programEnd
  | members => exact .membersEnd
  | commands => exact .commandsEnd
  | optionalItems item => exact .noItems
  | _ => cases hc

theorem topLevel (hc : category ∈ [.functionDeclaration, .entity, .command])
    (h : Yields category u k) : Yields .program u k := by
  intro n
  have hsingle : ∀ c ∈ [Category.functionDeclaration, .entity, .command], c.single = true := by
    decide
  obtain ⟨node, m, hreads, rfl⟩ := h.single (hsingle _ hc) n
  have hprogram := Reads.programNext hc hreads .programEnd
  rw [List.append_nil] at hprogram
  exact ⟨[node], m, hprogram, by simp⟩

theorem member (hc : category ∈ [.variableDeclaration, .functionDeclaration])
    (h : Yields category u k) : Yields .members u k := by
  intro n
  have hsingle : ∀ c ∈ [Category.variableDeclaration, .functionDeclaration], c.single = true := by
    decide
  obtain ⟨node, m, hreads, rfl⟩ := h.single (hsingle _ hc) n
  have hmembers := Reads.membersNext hc hreads .membersEnd
  rw [List.append_nil] at hmembers
  exact ⟨[node], m, hmembers, by simp⟩

/-- A lone semicolon is a command, but no node of a block. -/
theorem oneCommand (h : Yields .command u k) : Yields .commands u k := by
  intro n
  obtain ⟨node, m, hreads, rfl⟩ := h.single rfl n
  by_cases hskip : u = [.symbol .semicolon]
  · subst hskip
    have hnode : node.declarations = [] := by
      cases hreads with
      | skip => rw [Node.declarations_eq]; rfl
      | declared h => cases h
      | blocked h => cases h
    exact ⟨[], n, .commandsSkip .commandsEnd, by rw [hnode]; rfl⟩
  · have hcommands := Reads.commandsNext hskip hreads .commandsEnd
    rw [List.append_nil] at hcommands
    exact ⟨[node], m, hcommands, by simp⟩

theorem variableDeclaration (htype : word.typeName? = some type)
    (h : Derives .expression (u.map Token.terminal)) :
    Yields .variableDeclaration (.identifier name :: .symbol .colon :: .keyword word ::
      .symbol .assign :: (u ++ [.symbol .semicolon])) [.variable (encodeUtf8 name)] := by
  refine of_node fun n => ?_
  obtain ⟨value, m, hvalue, hlines⟩ := (of_derives h rfl).single rfl (n + 1)
  refine ⟨_, _, .variableDeclaration htype hvalue, ?_⟩
  simp [Node.children, Node.declarationLine?, Node.name?, hlines]

theorem functionDeclaration {result : Option TypeName}
    (hp : Derives (.optionalItems .parameter) (u.map Token.terminal)) (hr : ReadsType v result)
    (hb : Yields .block w k) :
    Yields .functionDeclaration (.keyword .func :: .identifier name :: .symbol .leftParen ::
      (u ++ .symbol .rightParen :: (v ++ w))) (k ++ [.function (encodeUtf8 name)]) := by
  refine of_node fun n => ?_
  obtain ⟨parameters, m, hparameters, hlines⟩ := of_derives hp rfl n
  obtain ⟨body, i, hbody, rfl⟩ := hb.single rfl m
  refine ⟨_, _, .functionDeclaration hparameters hr hbody, ?_⟩
  simp only [Node.children, Node.declarationLine?, List.cons_append, List.flatMap_cons,
    List.flatMap_append, hlines]
  simp

theorem entity (h : Yields .members u k) :
    Yields .entity (.keyword .entity :: .identifier name :: .symbol .leftBrace ::
      (u ++ [.symbol .rightBrace])) k := by
  refine of_node fun n => ?_
  obtain ⟨nodes, m, hnodes, rfl⟩ := h n
  exact ⟨_, _, .entity hnodes, List.append_nil _⟩

theorem block (h : Yields .commands u k) :
    Yields .block (.symbol .leftBrace :: (u ++ [.symbol .rightBrace])) k := by
  refine of_node fun n => ?_
  obtain ⟨nodes, m, hnodes, rfl⟩ := h n
  exact ⟨_, _, .block hnodes, List.append_nil _⟩

theorem declared (h : Yields .variableDeclaration u k) : Yields .command u k := by
  intro n
  obtain ⟨node, m, hreads, rfl⟩ := h.single rfl n
  exact ⟨[node], m, .declared hreads, by simp⟩

theorem blocked (h : Yields .block u k) : Yields .command u k := by
  intro n
  obtain ⟨node, m, hreads, rfl⟩ := h.single rfl n
  exact ⟨[node], m, .blocked hreads, by simp⟩

theorem conditional (he : Derives .expression (u.map Token.terminal)) (hc : Yields .command v k) :
    Yields .command (.keyword .ifWord :: .symbol .leftParen :: (u ++ .symbol .rightParen :: v))
      k := by
  refine of_node fun n => ?_
  obtain ⟨condition, m, hcondition, hlines⟩ := (of_derives he rfl).single rfl n
  obtain ⟨positive, i, hpositive, rfl⟩ := hc.single rfl m
  refine ⟨_, _, .conditional hcondition hpositive, ?_⟩
  simp [Node.children, Node.declarationLine?, hlines]

/-- After a block an `else` has only one conditional to belong to. -/
theorem conditionalElse (he : Derives .expression (u.map Token.terminal)) (hb : Yields .block v j)
    (hd : Yields .command w k) :
    Yields .command (.keyword .ifWord :: .symbol .leftParen ::
      (u ++ .symbol .rightParen :: (v ++ .keyword .elseWord :: w))) (j ++ k) := by
  refine of_node fun n => ?_
  obtain ⟨condition, m, hcondition, hlines⟩ := (of_derives he rfl).single rfl n
  obtain ⟨positive, i, hpositive, rfl⟩ := hb.single rfl m
  obtain ⟨negative, p, hnegative, rfl⟩ := hd.single rfl i
  have hdangles : positive.dangles = false := by
    cases hpositive
    rfl
  refine ⟨_, _, .conditionalElse hcondition (.blocked hpositive) hdangles hnegative, ?_⟩
  simp [Node.children, Node.declarationLine?, hlines]

theorem loop (he : Derives .expression (u.map Token.terminal)) (hc : Yields .command v k) :
    Yields .command (.keyword .untilWord :: .symbol .leftParen ::
      (u ++ .symbol .rightParen :: v)) k := by
  refine of_node fun n => ?_
  obtain ⟨condition, m, hcondition, hlines⟩ := (of_derives he rfl).single rfl n
  obtain ⟨body, i, hbody, rfl⟩ := hc.single rfl m
  exact ⟨_, _, .loop hcondition hbody, by simp [Node.children, Node.declarationLine?, hlines]⟩

theorem resultNone : Yields .command [.keyword .returnWord, .symbol .semicolon] [] :=
  of_node fun _ => ⟨_, _, .resultNone, rfl⟩

theorem result (h : Derives .expression (u.map Token.terminal)) :
    Yields .command (.keyword .returnWord :: (u ++ [.symbol .semicolon])) [] := by
  refine of_node fun n => ?_
  obtain ⟨value, m, hvalue, hlines⟩ := (of_derives h rfl).single rfl n
  exact ⟨_, _, .result hvalue, by simp [Node.children, Node.declarationLine?, hlines]⟩

theorem action (hw : word ∈ Keyword.actions)
    (h : Derives (.optionalItems .expression) (u.map Token.terminal)) :
    Yields .command (.keyword word :: .symbol .leftParen ::
      (u ++ [.symbol .rightParen, .symbol .semicolon])) [] := by
  refine of_node fun n => ?_
  obtain ⟨nodes, m, hnodes, hlines⟩ := of_derives h rfl n
  exact ⟨_, _, .action hw hnodes, (List.append_nil _).trans hlines⟩

theorem assignment (h : Derives .expression (u.map Token.terminal)) :
    Yields .command (.identifier name :: .symbol .assign :: (u ++ [.symbol .semicolon])) [] := by
  refine of_node fun n => ?_
  obtain ⟨value, m, hvalue, hlines⟩ := (of_derives h rfl).single rfl n
  exact ⟨_, _, .assignment hvalue, by simp [Node.children, Node.declarationLine?, hlines]⟩

/-- The index is read but is no part of the tree. -/
theorem elementAssignment (hi : Derives .expression (u.map Token.terminal))
    (he : Derives .expression (v.map Token.terminal)) :
    Yields .command (.identifier name :: .symbol .leftBracket ::
      (u ++ .symbol .rightBracket :: .symbol .assign :: (v ++ [.symbol .semicolon]))) [] := by
  refine of_node fun n => ?_
  obtain ⟨index, m, hindex, _⟩ := (of_derives hi rfl).single rfl n
  obtain ⟨value, i, hvalue, hlines⟩ := (of_derives he rfl).single rfl m
  refine ⟨_, _, .elementAssignment hindex hvalue, ?_⟩
  simp [Node.children, Node.declarationLine?, hlines]

end Yields

end LevelScript

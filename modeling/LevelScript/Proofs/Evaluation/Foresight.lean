import LevelScript.Proofs.Evaluation.Footprint
import LevelScript.Proofs.Evaluation.Independence
import LevelScript.Proofs.Evaluation.Operands
import LevelScript.Proofs.Evaluation.Return
import LevelScript.Proofs.Evaluation.Safety

set_option autoImplicit false

namespace LevelScript

def BinaryOp.resultType : BinaryOp → TypeName
  | .arithmetic _ => .number
  | .equal | .notEqual | .order _ | .connective _ | .other _ => .boolean

theorem BinaryOp.apply_type {op : BinaryOp} {leftType rightType type : TypeName}
    {left right value : Value} (h : op.apply leftType left rightType right = .ok (type, value)) :
    type = op.resultType := by
  have happlies := h ▸ op.applies leftType left rightType right
  cases happlies <;> rfl

namespace Node

/-- The type of an expression, from the types of names. A call has the type of its function, and a
plus that of what it stands before. -/
def foreseen? (types : String → Option TypeName) : Node → Option TypeName
  | .number _ _ | .length _ _ => some .number
  | .boolean _ _ => some .boolean
  | .text _ _ => some .text
  | .array _ _ => some .array
  | .binary _ op _ _ => some op.resultType
  | .unary _ .minus _ => some .number
  | .unary _ .plus operand => operand.foreseen? types
  | .identifier _ name | .call _ name _ => types name
  | _ => none

/-- No element of an array is asked for in a node, at any depth. -/
def AccessFree (node : Node) : Prop :=
  ∀ id array index, ¬ (Node.access id array index).Within node

theorem AccessFree.child {node child : Node} (h : node.AccessFree)
    (hchild : child ∈ node.children) : child.AccessFree :=
  fun id array index haccess => h id array index (.inside hchild haccess)

end Node

namespace Forest

def typeOf? (forest : Forest) (scope : ScopeId) (name : String) : Option TypeName :=
  (forest.meaning? scope name).map Datum.type

theorem typeOf?_of_resolve {forest : Forest} {scope owner : ScopeId} {name : String} {row : Row}
    (h : forest.resolve scope name = .ok (owner, row)) :
    forest.typeOf? scope name = some row.type := by
  rw [typeOf?, meaning?, h]
  rfl

end Forest

namespace Evaluation

variable {eval : Evaluator} {scope : ScopeId} {world last : World}

theorem unary_type {op : UnaryOp} {operand : Option Operand} {result : Operand}
    (hop : op ∈ [.plus, .minus]) (h : (unary op operand).run world = (.ok result, last)) :
    (op = .minus ∧ result.type = .number) ∨ (op = .plus ∧ operand = some result) := by
  simp only [List.mem_cons, List.not_mem_nil, or_false] at hop
  cases operand with
  | none => cases h
  | some operand =>
    rcases hop with rfl | rfl
    · cases h
      exact .inr ⟨rfl, rfl⟩
    · have hnumber : Gives (fun result : Operand => result.type = .number)
          (unary .minus (some operand)) :=
        gives_unless (.after _ fun _ => .after _ fun _ => gives_pure rfl)
      exact .inl ⟨rfl, hnumber world last result h⟩

theorem length_type (array : Node) :
    Gives (fun result : Operand => result.type = .number) (length eval scope array) :=
  .after _ fun _ => .after _ fun _ => gives_unless (.after _ fun _ => .after _ fun _ =>
    gives_pure rfl)

theorem call_type {name : String} {arguments : List Node} {result : Operand}
    (hworld : world.forest.Typed true)
    (h : (call eval scope name arguments).run world = (.ok result, last)) :
    world.forest.typeOf? scope name = some result.type := by
  obtain ⟨owner, row, f, hresolve, hfunction, hvalue, htype⟩ := exists_of_call_ok h
  rw [Forest.typeOf?_of_resolve hresolve, htype]
  cases hworld.row? (Forest.resolve_row? hresolve) with
  | held => cases hfunction
  | function =>
    cases hvalue
    rfl

def ForeseenOn (eval : Evaluator) : Prop :=
  ∀ node scope world last result, Sourced true .expression node → node.AccessFree →
    world.forest.Typed true → (eval node scope).run world = (.ok result, last) →
    ∃ operand, result = some operand ∧
      node.foreseen? (world.forest.typeOf? scope) = some operand.type

theorem step_foreseenOn (rounds : Nat) (he : ForeseenOn eval) :
    ForeseenOn (step rounds eval) := by
  intro node scope world last result hnode haccess hworld hrun
  cases hnode with
  | number | boolean | text =>
    cases hrun
    exact ⟨_, rfl, rfl⟩
  | @identifier id name =>
    obtain ⟨found, between, hfound, hdone⟩ := exists_of_run_bind_ok hrun
    cases hdone
    rw [run_resolve] at hfound
    split at hfound
    · next hresolve =>
      cases hfound
      exact ⟨_, rfl, Forest.typeOf?_of_resolve hresolve⟩
    · cases hfound
  | binary =>
    obtain ⟨left, afterLeft, _, hrest⟩ := exists_of_run_bind_ok hrun
    obtain ⟨right, afterRight, _, hrest⟩ := exists_of_run_bind_ok hrest
    obtain ⟨operand, between, hbinary, hdone⟩ := exists_of_run_bind_ok hrest
    cases hdone
    obtain ⟨l, r, type, value, _, _, _, happly, rfl⟩ := binary_ok hbinary
    exact ⟨_, rfl, congrArg some (BinaryOp.apply_type happly).symm⟩
  | @unary id op operand hop ho =>
    obtain ⟨inner, between, hinner, hrest⟩ := exists_of_run_bind_ok hrun
    obtain ⟨given, after, hunary, hdone⟩ := exists_of_run_bind_ok hrest
    cases hdone
    refine ⟨given, rfl, ?_⟩
    rcases unary_type hop hunary with ⟨rfl, hnumber⟩ | ⟨rfl, rfl⟩
    · rw [hnumber]
      rfl
    · -- the operand is evaluated first, so its names are looked up in the same world
      obtain ⟨_, hsome, hforeseen⟩ :=
        he operand scope world between _ ho (haccess.child List.mem_cons_self) hworld hinner
      cases hsome
      exact hforeseen
  | array =>
    obtain ⟨values, between, _, hdone⟩ := exists_of_run_bind_ok hrun
    cases hdone
    exact ⟨_, rfl, rfl⟩
  | access => exact absurd (.root _) (haccess _ _ _)
  | length =>
    obtain ⟨operand, between, hlength, hdone⟩ := exists_of_run_bind_ok hrun
    cases hdone
    refine ⟨operand, rfl, ?_⟩
    rw [length_type _ world last operand hlength]
    rfl
  | call =>
    obtain ⟨operand, between, hcall, hdone⟩ := exists_of_run_bind_ok hrun
    cases hdone
    exact ⟨operand, rfl, call_type hworld hcall⟩

theorem evaluate_foreseenOn (rounds depth : Nat) : ForeseenOn (evaluate rounds depth) := by
  induction depth with
  | zero => exact fun _ _ _ _ _ _ _ _ hrun => nomatch hrun
  | succ depth ih => exact step_foreseenOn rounds ih

end Evaluation

namespace Forest

variable {forest later : Forest} {scope : ScopeId} {table : Scope}

theorem typeOf?_eq (forest : Forest) (scope : ScopeId) (name : String) :
    forest.typeOf? scope name =
      (forest.nearest? name (forest.chain scope)).map (fun found => found.2.type) := by
  rw [typeOf?, meaning?, resolve]
  cases forest.nearest? name (forest.chain scope) <;> rfl

theorem Frame.typeOf? (h : forest.Frame false scope later) (hformed : forest.WellFormed)
    (htable : forest.scope? scope = some table) : later.typeOf? scope = forest.typeOf? scope := by
  funext name
  rw [typeOf?_eq, typeOf?_eq]
  have hnearest := h.nearest? hformed htable name
  generalize forest.nearest? name (forest.chain scope) = found at hnearest ⊢
  generalize later.nearest? name (later.chain scope) = kept at hnearest ⊢
  cases hnearest with
  | none => rfl
  | some hkept => exact congrArg some hkept.2.type

end Forest

theorem Session.start_wellFormed : Session.start.forest.WellFormed := by
  constructor <;> rintro (_ | id) scope hscope <;> cases hscope
  · exact List.nodup_nil
  · exact nofun

theorem moments_wellFormed (rounds depth : Nat) (node : Node) (titles : Titles) :
    ∀ world ∈ (Evaluation.evaluate rounds depth node Session.start.root).moments
      ⟨Session.start.forest, #[], titles⟩, world.forest.WellFormed := by
  intro world hworld
  have hframes := Evaluation.evaluate_framesOn rounds depth true node Session.start.root nofun
  have hkept := hframes Session.start.forest (.empty []) Session.start_wellFormed rfl
  exact ((hkept ⟨Session.start.forest, #[], titles⟩ rfl).moments world hworld).wellFormed

/-- At each moment of the run of a parsed program and in each scope that there is then, the type of
what an expression of any source gives is the one foreseen from the expression and the types of the
names visible there, if no element of an array is asked for in it; and the types of these names are
the same afterwards. -/
theorem result_type_foreseen (built : Nat) (source : String) (program : Node)
    (state : ParseState Lexer) (h : Construct.program.parse built source = .ok (program, state))
    (rounds depth : Nat) (titles : Titles) (moment : World)
    (hmoment : moment ∈ (Evaluation.evaluate rounds depth program Session.start.root).moments
      ⟨Session.start.forest, #[], titles⟩)
    (scope : ScopeId) (table : Scope) (hscope : moment.forest.scope? scope = some table)
    (construct : Construct) (built' : Nat) (text : String) (tree node : Node)
    (state' : ParseState Lexer) (hconstruct : construct ∈ [.program, .expression])
    (hparse : construct.parse built' text = .ok (tree, state')) (hnode : node.Within tree)
    (hexpression : node.isExpression = true) (haccess : node.AccessFree) (rounds' depth' : Nat)
    (last : World) (result : Option Operand)
    (hrun : (Evaluation.evaluate rounds' depth' node scope).run moment = (.ok result, last)) :
    ∃ operand, result = some operand ∧
      node.foreseen? (moment.forest.typeOf? scope) = some operand.type ∧
      last.forest.typeOf? scope = moment.forest.typeOf? scope := by
  obtain ⟨_, htree⟩ := sourced_of_parse hconstruct hparse
  obtain ⟨_, hsourced⟩ := htree.within hnode
  have hexpression := hsourced.expression hexpression
  have htyped := moments_typed true h (.inl rfl) rounds depth _ (Session.start_typed true) moment
    hmoment
  have hformed := moments_wellFormed rounds depth program titles moment hmoment
  obtain ⟨operand, hsome, hforeseen⟩ := Evaluation.evaluate_foreseenOn rounds' depth' node scope
    moment last result hexpression haccess htyped hrun
  refine ⟨operand, hsome, hforeseen, ?_⟩
  have hframes := Evaluation.evaluate_framesOn rounds' depth' false node scope fun _ => hexpression
  have hframed := (hframes.framed hscope).run ⟨hformed, .refl _ _ _⟩
  rw [hrun] at hframed
  exact hframed.frame.typeOf? hformed hscope

/-- After `func f():number{return 1;}return +f();` the function is still there, and `+f()` is
foreseen to be the number that it gives. -/
theorem signed_call_foreseen :
    ∃ program state node moment last operand,
      Construct.program.parse 0 "func f():number{return 1;}return +f();" = .ok (program, state) ∧
      moment ∈ (Evaluation.evaluate 1 9 program Session.start.root).moments
        ⟨Session.start.forest, #[], .numbered⟩ ∧
      node.Within program ∧ node.AccessFree ∧
      (Evaluation.evaluate 1 9 node Session.start.root).run moment = (.ok (some operand), last) ∧
      operand.type = .number ∧
      node.foreseen? (moment.forest.typeOf? Session.start.root) = some operand.type ∧
      last.forest.typeOf? Session.start.root = moment.forest.typeOf? Session.start.root := by
  have hstream : (TokenStream.ofSource "func f():number{return 1;}return +f();").fault? = none ∧
      (TokenStream.ofSource "func f():number{return 1;}return +f();").words =
        [.keyword .func, .identifier "f", .symbol .leftParen, .symbol .rightParen, .symbol .colon,
          .keyword .number, .symbol .leftBrace, .keyword .returnWord, .number 1,
          .symbol .semicolon, .symbol .rightBrace, .keyword .returnWord, .symbol .plus,
          .identifier "f", .symbol .leftParen, .symbol .rightParen, .symbol .semicolon] := by
    decide +kernel
  have hbody : Reads .block 0 [.symbol .leftBrace, .keyword .returnWord, .number 1,
      .symbol .semicolon, .symbol .rightBrace] [.block 3 [.result 2 (some (.number 1 1))]] 3 :=
    .block (.commandsNext (by decide) (.result (Reads.loosen (k := .factor) .number (by decide)))
      .commandsEnd)
  have hfunction : Reads .functionDeclaration 0 [.keyword .func, .identifier "f",
      .symbol .leftParen, .symbol .rightParen, .symbol .colon, .keyword .number,
      .symbol .leftBrace, .keyword .returnWord, .number 1, .symbol .semicolon, .symbol .rightBrace]
      [.function 4 "f" (some .number)
        [.identifier 5 "f", .block 3 [.result 2 (some (.number 1 1))]]] 5 :=
    .functionDeclaration .noItems (.some rfl) hbody
  have hsigned : Reads .expression 5 [.symbol .plus, .identifier "f", .symbol .leftParen,
      .symbol .rightParen] [.unary 7 .plus (.call 6 "f" [])] 7 :=
    Reads.loosen (k := .factor) (.signed rfl (.call .noItems)) (by decide)
  have hreads := Reads.programNext (by decide) hfunction
    (.programNext (by decide) (.result hsigned) .programEnd)
  obtain ⟨d, hparse⟩ := program_parses hstream.1 (by rw [hstream.2]; exact hreads)
  have hwithin : (Node.unary 7 .plus (.call 6 "f" [])).Within (.block 9 [.function 4 "f"
      (some .number) [.identifier 5 "f", .block 3 [.result 2 (some (.number 1 1))]],
      .result 8 (some (.unary 7 .plus (.call 6 "f" [])))]) :=
    .inside (List.mem_cons_of_mem _ List.mem_cons_self) (.inside List.mem_cons_self (.root _))
  have haccess : (Node.unary 7 .plus (.call 6 "f" [])).AccessFree := by
    rintro id array index (_ | ⟨hchild, haccess⟩)
    obtain rfl := List.mem_singleton.1 hchild
    rcases haccess with _ | ⟨hchild, _⟩
    cases hchild
  have hlast := Evaluation.run_mem_moments (Evaluation.evaluate 1 9 (.block 9 [.function 4 "f"
      (some .number) [.identifier 5 "f", .block 3 [.result 2 (some (.number 1 1))]],
      .result 8 (some (.unary 7 .plus (.call 6 "f" [])))]) Session.start.root)
    ⟨Session.start.forest, #[], .numbered⟩
  obtain ⟨operand, hsome, hforeseen, htypes⟩ := result_type_foreseen 0 _ _ _ hparse 1 9 _ _ hlast
    Session.start.root _ rfl .program 0 _ _ _ _ (by decide) hparse hwithin rfl haccess 1 9 _
    (some (.temporary .number (.number 1))) rfl
  cases hsome
  exact ⟨_, _, _, _, _, _, hparse, hlast, hwithin, haccess, rfl, rfl, hforeseen, htypes⟩

end LevelScript

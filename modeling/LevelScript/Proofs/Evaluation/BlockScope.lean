import LevelScript.Proofs.Evaluation.Footprint
import LevelScript.Proofs.Evaluation.Return

set_option autoImplicit false

namespace LevelScript

def Node.declares? : Node → Option String
  | .declaration _ _ label _ => label.name?
  | .function _ name _ _ => some name
  | _ => none

theorem RowsKept.names {rows later : List Row} (h : RowsKept rows later) :
    later.map Row.name = rows.map Row.name := by
  induction h with
  | nil => rfl
  | cons hrow _ ih => rw [List.map_cons, List.map_cons, hrow.name, ih]

namespace Forest

variable {grows : Bool} {scope : ScopeId} {forest later : Forest} {name : String}

def names (forest : Forest) (id : ScopeId) : List String :=
  (forest.rows id).map Row.name

theorem names_of_scope? {table : Scope} (h : forest.scope? scope = some table) :
    forest.names scope = table.rows.map Row.name := by
  rw [names, rows, h]
  rfl

structure HasScope (forest : Forest) (scope : ScopeId) : Prop where
  wellFormed : forest.WellFormed
  table : ∃ table, forest.scope? scope = some table

theorem Frame.names (h : forest.Frame grows scope later) (hscope : forest.HasScope scope) :
    ∃ added, later.names scope = forest.names scope ++ added ∧ (grows = false → added = []) := by
  obtain ⟨table, htable⟩ := hscope.table
  obtain ⟨grown, hgrown, hrows⟩ := h.here table htable
  obtain ⟨kept, added, happend, hkept, _, hnone⟩ := hrows.rows
  refine ⟨added.map Row.name, ?_, fun hgrows => by rw [hnone hgrows, List.map_nil]⟩
  rw [names_of_scope? hgrown, names_of_scope? htable, happend, List.map_append, hkept.names]

theorem Frame.names_subset (h : forest.Frame grows scope later) (hscope : forest.HasScope scope) :
    forest.names scope ⊆ later.names scope := by
  obtain ⟨added, hadded, _⟩ := h.names hscope
  rw [hadded]
  exact List.subset_append_left _ _

theorem Frame.names_eq (h : forest.Frame false scope later) (hscope : forest.HasScope scope) :
    later.names scope = forest.names scope := by
  obtain ⟨added, hadded, hnone⟩ := h.names hscope
  rw [hadded, hnone rfl, List.append_nil]

structure Adds (scope : ScopeId) (name : String) (forest later : Forest) : Prop where
  before : name ∉ forest.names scope
  after : name ∈ later.names scope

theorem adds_newRow {type : TypeName} {value : Value} {isFunction : Bool} {row : Row}
    (h : forest.newRow scope name type value isFunction = .ok row) :
    forest.Adds scope name (forest.add scope row) := by
  obtain ⟨table, started, htable, hnone, _, rfl⟩ := newRow_eq h
  have hadded := add_scope? forest scope scope
    ⟨name, type, started, table.nextShift, isFunction⟩
  rw [if_pos rfl, htable, Option.map_some] at hadded
  constructor
  · rw [names_of_scope? htable, List.mem_map]
    rintro ⟨row, hrow, hname⟩
    exact absurd hname (by simpa using List.find?_eq_none.1 hnone row hrow)
  · rw [names_of_scope? hadded]
    simp [Scope.add]

end Forest

namespace Evaluation

variable {α : Type} {eval : Evaluator} {scope : ScopeId} {world last : World} {name : String}

theorem Frames.later {grows : Bool} {x : Evaluation α} (hx : Frames grows scope x)
    (hscope : world.forest.HasScope scope) {result : Except Stop α}
    (h : x.run world = (result, last)) :
    world.forest.Frame grows scope last.forest ∧ last.forest.HasScope scope := by
  obtain ⟨table, htable⟩ := hscope.table
  have hframed := (hx.framed htable).run ⟨hscope.wellFormed, .refl _ _ _⟩
  rw [h] at hframed
  exact ⟨hframed.frame, hframed.wellFormed, hframed.scope? htable⟩

theorem declare_adds {type : TypeName} {value : Value} {isFunction : Bool}
    (h : (declare scope name type value isFunction).run world = (.ok (), last)) :
    world.forest.Adds scope name last.forest := by
  rw [run_declare, Forest.declare] at h
  cases hnew : world.forest.newRow scope name type value isFunction with
  | error cause =>
    rw [hnew] at h
    cases h
  | ok row =>
    rw [hnew] at h
    cases h
    exact Forest.adds_newRow hnew

/-- What a name is added after was without it, as no row is ever taken away. -/
theorem Frames.adds {x : Evaluation α} {between : World} {result : Except Stop α}
    (hx : Frames true scope x) (hscope : world.forest.HasScope scope)
    (h : x.run world = (result, between)) (hadds : between.forest.Adds scope name last.forest) :
    world.forest.Adds scope name last.forest := by
  obtain ⟨hframe, _⟩ := hx.later hscope h
  exact ⟨fun hmem => hadds.before (hframe.names_subset hscope hmem), hadds.after⟩

theorem declaration_adds {type : Option TypeName} {label : Node} {value : Option Node}
    (he : FramesOn eval) (hscope : world.forest.HasScope scope) (hlabel : label.name? = some name)
    (h : (declaration eval scope type label value).run world = (.ok (), last)) :
    world.forest.Adds scope name last.forest := by
  rw [declaration, nameOf, hlabel] at h
  obtain ⟨_, _, hname, h⟩ := exists_of_run_bind_ok h
  cases hname
  cases type with
  | none => cases h
  | some type =>
    cases value with
    | none => exact declare_adds h
    | some node =>
      obtain ⟨result, between, hnode, h⟩ := exists_of_run_bind_ok h
      refine (he.any node).adds hscope hnode ?_
      cases result with
      | none => cases h
      | some operand =>
        dsimp only at h
        split at h
        · cases h
        · exact declare_adds h

theorem step_adds {rounds : Nat} {node : Node} {result : Option Operand} (he : FramesOn eval)
    (hscope : world.forest.HasScope scope) (hnode : node.declares? = some name)
    (h : (step rounds eval node scope).run world = (.ok result, last)) :
    world.forest.Adds scope name last.forest := by
  cases node with
  | declaration id type label value =>
    obtain ⟨_, between, hdeclared, hdone⟩ := exists_of_run_bind_ok h
    cases hdone
    exact declaration_adds he hscope hnode hdeclared
  | function id called type parts =>
    cases hnode
    obtain ⟨_, between, hdeclared, hdone⟩ := exists_of_run_bind_ok h
    cases hdone
    exact declare_adds hdeclared
  | _ => cases hnode

theorem evaluate_adds {rounds depth : Nat} {node : Node} {result : Option Operand}
    (hscope : world.forest.HasScope scope) (hnode : node.declares? = some name)
    (h : (evaluate rounds depth node scope).run world = (.ok result, last)) :
    world.forest.Adds scope name last.forest := by
  cases depth with
  | zero => cases h
  | succ depth => exact step_adds (evaluate_framesOn rounds depth) hscope hnode h

theorem commands_adds {rounds depth : Nat} {nodes : List Node} {node : Node}
    (hscope : world.forest.HasScope scope) (hmem : node ∈ nodes)
    (hnode : node.declares? = some name)
    (h : (commands (evaluate rounds depth) scope nodes).run world = (.ok (), last)) :
    world.forest.Adds scope name last.forest := by
  have he := evaluate_framesOn rounds depth
  obtain ⟨before, after, rfl⟩ := List.append_of_mem hmem
  rw [run_commands_append_eq] at h
  obtain ⟨_, between, hbefore, hafter⟩ := exists_of_run_bind_ok h
  obtain ⟨_, hbetween⟩ := (commands_frames he before).later hscope hbefore
  refine (commands_frames he before).adds hscope hbefore ?_
  have hblock : node.isBlock = false := by
    cases node with
    | block => cases hnode
    | _ => rfl
  rw [commands, hblock] at hafter
  obtain ⟨result, declared, hdeclared, hafter⟩ := exists_of_run_bind_ok hafter
  have hadds := evaluate_adds hbetween hnode hdeclared
  obtain ⟨_, hlater⟩ := (he.any node).later hbetween hdeclared
  obtain ⟨hframe, _⟩ := (commands_frames he after).later hlater hafter
  exact ⟨hadds.before, hframe.names_subset hlater hadds.after⟩

theorem block_adds {rounds depth id : Nat} {nodes : List Node} {node : Node}
    {result : Option Operand} (hscope : world.forest.HasScope scope) (hmem : node ∈ nodes)
    (hnode : node.declares? = some name)
    (h : (evaluate rounds depth (.block id nodes) scope).run world = (.ok result, last)) :
    world.forest.Adds scope name last.forest := by
  cases depth with
  | zero => cases h
  | succ depth =>
    obtain ⟨_, between, hcommands, hdone⟩ := exists_of_run_bind_ok h
    cases hdone
    exact commands_adds hscope hmem hnode hcommands

theorem Repeats.later {condition body : Node} {k : Nat} (he : FramesOn eval)
    (h : Repeats eval scope condition body k world last) (hscope : world.forest.HasScope scope) :
    last.forest.HasScope scope := by
  induction h with
  | none world => exact hscope
  | again hholds hbody _ ih =>
    obtain ⟨_, hready⟩ := (holds_frames he condition _).later hscope hholds
    exact ih ((he.any body).later hready hbody).2

/-- A body that declares a name makes no second round: the name is still a row then. -/
theorem Repeats.le_one {rounds depth id k : Nat} {condition node : Node} {nodes : List Node}
    (h : Repeats (evaluate rounds depth) scope condition (.block id nodes) k world last)
    (hscope : world.forest.HasScope scope) (hmem : node ∈ nodes)
    (hnode : node.declares? = some name) : k ≤ 1 := by
  have he := evaluate_framesOn rounds depth
  cases h with
  | none => exact Nat.zero_le 1
  | again hholds hbody hrest =>
    obtain ⟨_, hready⟩ := (holds_frames he condition _).later hscope hholds
    have hadds := block_adds hready hmem hnode hbody
    obtain ⟨_, hbetween⟩ := (he.any (.block id nodes)).later hready hbody
    cases hrest with
    | none => exact Nat.le_refl 1
    | again hholds' hbody' _ =>
      obtain ⟨hframe, hready'⟩ := (holds_frames he condition _).later hbetween hholds'
      have hfresh := (block_adds hready' hmem hnode hbody').before
      exact absurd (hframe.names_subset hbetween hadds.after) hfresh

theorem enclosed_names {node : Node} {inner : ScopeId} {between opened : World}
    (he : FramesOn eval) (hscope : between.forest.HasScope scope)
    (hopened : (enclose scope).run between = (.ok inner, opened)) :
    ((eval node inner).run opened).2.forest.names scope = opened.forest.names scope := by
  have hinside : Frames false scope (enclose scope >>= fun inner => eval node inner) :=
    enclose_frames fun _ _ _ _ hnew => (he.any node).inside hnew
  have hempty : Frames false scope (enclose scope >>= pure) :=
    enclose_frames fun _ _ _ _ _ => (looks_pure _).quiet _
  obtain ⟨hframe, _⟩ := hinside.later hscope (Prod.eta _).symm
  obtain ⟨hframe', _⟩ := hempty.later hscope (Prod.eta _).symm
  rw [run_bind_ok hopened] at hframe hframe'
  exact (hframe.names_eq hscope).trans (hframe'.names_eq hscope).symm

theorem Starts.block_scope {rounds id : Nat} {outer : Node} {nodes : List Node} {inner : ScopeId}
    {ready : World} (he : FramesOn eval) (hscope : world.forest.HasScope scope)
    (houter : outer.isBlock = false)
    (h : Starts rounds eval ⟨outer, scope, world⟩ ⟨.block id nodes, inner, ready⟩) :
    inner = scope ∧ ready.forest.HasScope scope := by
  cases h with
  | command | innerBlock => cases houter
  | positive hholds | negative hholds =>
    exact ⟨rfl, ((holds_frames he _ _).later hscope hholds).2⟩
  | round _ hrepeats hholds =>
    exact ⟨rfl, ((holds_frames he _ _).later (hrepeats.later he hscope) hholds).2⟩

theorem Starts.names_kept {rounds id : Nat} {outer : Node} {nodes : List Node} {inner : ScopeId}
    {ready : World} (he : FramesOn eval) (hscope : world.forest.HasScope scope)
    (houter : outer.isBlock = true)
    (h : Starts rounds eval ⟨outer, scope, world⟩ ⟨.block id nodes, inner, ready⟩) :
    ((eval (.block id nodes) inner).run ready).2.forest.names scope =
      ready.forest.names scope := by
  cases h with
  | command _ hblock => cases hblock
  | innerBlock hbefore _ hopened =>
    exact enclosed_names he ((commands_frames he _).later hscope hbefore).2 hopened
  | positive | negative | round => cases houter

/-- A block that stands directly in a block leaves the names of the scope around it as they are,
however it ends. A block that is a branch of a conditional or the body of a loop declares its names
in that scope: they are new rows of it when the block has ended normally, the command stops where
one of them is a row already, and a loop with such a body never makes a second whole round. -/
theorem block_names (rounds depth id : Nat) (outer : Node) (nodes : List Node)
    (scope inner : ScopeId) (table : Scope) (world ready : World)
    (hforest : world.forest.WellFormed) (htable : world.forest.scope? scope = some table)
    (hstarts : Starts rounds (evaluate rounds depth) ⟨outer, scope, world⟩
      ⟨.block id nodes, inner, ready⟩) :
    let ended := (evaluate rounds depth (.block id nodes) inner).run ready
    (outer.isBlock = true → ended.2.forest.names scope = ready.forest.names scope) ∧
      (outer.isBlock = false → ∀ node ∈ nodes, ∀ name, node.declares? = some name →
        (ended.1.isOk = true → ready.forest.Adds scope name ended.2.forest) ∧
        (name ∈ ready.forest.names scope → ∃ reason,
          (evaluate rounds (depth + 1) outer scope).run world = (.error reason, ended.2)) ∧
        ∀ loop condition k later, outer = .loop loop condition (.block id nodes) →
          Repeats (evaluate rounds depth) scope condition (.block id nodes) k world later →
          k ≤ 1) := by
  have he := evaluate_framesOn rounds depth
  have hscope : world.forest.HasScope scope := ⟨hforest, table, htable⟩
  refine ⟨fun houter => hstarts.names_kept he hscope houter, fun houter node hmem name hnode => ?_⟩
  obtain ⟨rfl, hready⟩ := hstarts.block_scope he hscope houter
  cases hended : ((evaluate rounds depth (.block id nodes) inner).run ready).1 with
  | ok result =>
    have hadds := block_adds hready hmem hnode (Prod.ext hended rfl)
    exact ⟨fun _ => hadds, fun hold => absurd hold hadds.before,
      fun _ _ k later _ hrepeats => hrepeats.le_one hscope hmem hnode⟩
  | error reason =>
    exact ⟨nofun, fun _ => ⟨reason, hstarts.run_stopped (Prod.ext hended rfl)⟩,
      fun _ _ k later _ hrepeats => hrepeats.le_one hscope hmem hnode⟩

/-- The body of `until (i < 2) { x: number = 1; i = i + 1; }` makes `x` a row of the scope of the
loop, and a second whole round is not made. -/
theorem loop_body_names :
    let nodes : List Node := [.declaration 0 (some .number) (.identifier 0 "x")
      (some (.number 0 1)), .assignment 0 (.identifier 0 "i")
        (.binary 0 (.arithmetic .add) (.identifier 0 "i") (.number 0 1))]
    let condition : Node := .binary 0 (.order .less) (.identifier 0 "i") (.number 0 2)
    let world : World := ⟨⟨#[⟨[], [⟨"i", .number, .number 0, 4, false⟩], 8⟩]⟩, #[], .numbered⟩
    world.forest.WellFormed ∧ ((evaluate 2 4 (.block 0 nodes) 0).run world).1.isOk = true ∧
      world.forest.Adds 0 "x" ((evaluate 2 4 (.block 0 nodes) 0).run world).2.forest ∧
      ∀ k later, Repeats (evaluate 2 4) 0 condition (.block 0 nodes) k world later → k ≤ 1 := by
  intro nodes condition world
  have hforest : world.forest.WellFormed := by
    constructor <;> rintro (_ | id) scope hscope <;> cases hscope <;> decide
  have hstarts : Starts 2 (evaluate 2 4) ⟨.loop 0 condition (.block 0 nodes), 0, world⟩
      ⟨.block 0 nodes, 0, world⟩ :=
    .round (by decide) (.none world) rfl
  obtain ⟨_, hbody⟩ := block_names 2 4 0 _ nodes 0 0 _ world world hforest rfl hstarts
  obtain ⟨hadds, _, hrounds⟩ := hbody rfl _ List.mem_cons_self "x" rfl
  have hended : ((evaluate 2 4 (.block 0 nodes) 0).run world).1.isOk = true := by decide +kernel
  exact ⟨hforest, hended, hadds hended, fun k later => hrounds 0 condition k later rfl⟩

end Evaluation

def Outcome.fault? : Outcome → Option Fault
  | .evaluated (.fault cause) => some cause
  | _ => none

/-- A loop that is to count to two declares `x` in its body and fails in its second round. -/
theorem loop_body_redeclares :
    let report := (Session.start.run .numbered
      "i: number = 0; until (i < 2) \x7b x: number = 1; i = i + 1; \x7d").1
    report.outcome.fault? = some (.scope (.alreadyDeclared "x")) ∧
      report.globals.map Row.name = ["i", "x"] := by
  decide +kernel

end LevelScript

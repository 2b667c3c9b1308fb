import LevelScript.Proofs.Evaluation.Frame
import LevelScript.Proofs.Evaluation.Keeping
import LevelScript.Proofs.Parser.Printing
import LevelScript.Session

set_option autoImplicit false

namespace LevelScript.Evaluation

variable {α β : Type} {grows : Bool} {scope inner : ScopeId} {base forest : Forest}

/-- A forest within the frame of a scope of `base`. -/
structure Framed (grows : Bool) (scope : ScopeId) (base forest : Forest) : Prop where
  wellFormed : forest.WellFormed
  frame : base.Frame grows scope forest

def Frames (grows : Bool) (scope : ScopeId) (x : Evaluation α) : Prop :=
  ∀ base table, base.WellFormed → base.scope? scope = some table →
    KeepsFrom (Framed grows scope base) x base

theorem Frames.keeps {inv : Forest → Prop} {x : Evaluation α} (hx : Frames grows scope x)
    (hscope : ∀ forest, inv forest → forest.WellFormed ∧ ∃ table, forest.scope? scope = some table)
    (hlater : ∀ forest later, inv forest → Framed grows scope forest later → inv later) :
    Keeps inv x := by
  intro forest h
  obtain ⟨hformed, table, htable⟩ := hscope forest h
  exact (hx forest table hformed htable).mono fun later hframed => hlater forest later h hframed

theorem Framed.scope? {table : Scope} (h : Framed grows scope base forest)
    (htable : base.scope? scope = some table) : ∃ found, forest.scope? scope = some found := by
  obtain ⟨found, hfound, _⟩ := h.frame.scope? htable
  exact ⟨found, hfound⟩

theorem Framed.trans {table : Scope} {later : Forest} (h : Framed grows scope base forest)
    (htable : base.scope? scope = some table) (h' : Framed grows scope forest later) :
    Framed grows scope base later :=
  ⟨h'.wellFormed, h.frame.trans htable h'.frame⟩

theorem Frames.framed {table : Scope} {x : Evaluation α} (hx : Frames grows scope x)
    (htable : base.scope? scope = some table) : Keeps (Framed grows scope base) x :=
  hx.keeps (fun _ h => ⟨h.wellFormed, h.scope? htable⟩) fun _ _ h h' => h.trans htable h'

theorem Frames.bind {x : Evaluation α} {f : α → Evaluation β} (hx : Frames grows scope x)
    (hf : ∀ a, Frames grows scope (f a)) : Frames grows scope (x >>= f) :=
  fun base _ hbase htable =>
    ((hx.framed htable).bind fun a => (hf a).framed htable) base ⟨hbase, .refl _ _ _⟩

theorem Quiet.frames {x : Evaluation α} (h : Quiet x) : Frames grows scope x :=
  fun base _ hbase _ => h _ base ⟨hbase, .refl _ _ _⟩

theorem composes_frames (grows : Bool) (scope : ScopeId) :
    Composes fun x => Frames grows scope x :=
  ⟨fun h => h.quiet.frames, Frames.bind⟩

theorem frames_forest {f : Forest → Evaluation α}
    (hf : ∀ base table, base.WellFormed → base.scope? scope = some table →
      KeepsFrom (Framed grows scope base) (f base) base) :
    Frames grows scope (Evaluation.forest >>= f) := by
  rintro base table hbase htable world rfl
  exact ⟨⟨hbase, .refl _ _ _⟩, hf world.forest table hbase htable world rfl⟩

theorem keepsFrom_framed_change {update : World → World} (g : Forest → Forest)
    (hupdate : ∀ world, (update world).forest = g world.forest) (hbase : base.WellFormed)
    (hlater : Framed grows scope base (g base)) :
    KeepsFrom (Framed grows scope base) (change update) base :=
  keepsFrom_change g hupdate ⟨hbase, .refl _ _ _⟩ hlater

theorem framed_write {owner : ScopeId} {name : String} {type : TypeName} (value : Value)
    (h : forest.WellFormed) (htarget : forest.target scope name type = .ok owner) :
    Framed grows scope forest (forest.write owner name value) :=
  ⟨h.write owner name value, Forest.frame_write grows value h htarget⟩

theorem assign_frames (name : String) (type : TypeName) (value : Value) :
    Frames grows scope (assign scope name type value) := by
  refine frames_forest fun base _ hbase _ => ?_
  cases htarget : base.target scope name type with
  | error cause => exact (looks_raise _).quiet _ base ⟨hbase, .refl _ _ _⟩
  | ok owner =>
    exact keepsFrom_framed_change (fun forest => forest.write owner name value) (fun _ => rfl) hbase
      (framed_write value hbase htarget)

theorem declare_frames (name : String) (type : TypeName) (value : Value) (isFunction : Bool) :
    Frames true scope (declare scope name type value isFunction) := by
  refine frames_forest fun base _ hbase _ => ?_
  cases hnew : base.newRow scope name type value isFunction with
  | error cause => exact (looks_raise _).quiet _ base ⟨hbase, .refl _ _ _⟩
  | ok row =>
    obtain ⟨found, _, hfound, hnone, _, rfl⟩ := Forest.newRow_eq hnew
    exact keepsFrom_framed_change (fun forest => forest.add scope _) (fun _ => rfl) hbase
      ⟨hbase.add hfound hnone, Forest.frame_add hbase scope _⟩

theorem withInventory?_framed {items : List Value} {changed : Forest} (h : forest.WellFormed)
    (hchanged : withInventory? forest scope items = some changed) :
    Framed grows scope forest changed := by
  rw [withInventory?] at hchanged
  split at hchanged
  · next after hassign =>
    cases hchanged
    obtain ⟨owner, howner, rfl⟩ := Forest.assign_eq hassign
    exact framed_write _ h howner
  · cases hchanged

theorem acts_frames (grows : Bool) (scope : ScopeId) :
    Acts scope fun x => Frames grows scope x where
  toComposes := composes_frames grows scope
  emit event := (quiet_emit event).frames
  assign := assign_frames
  restock {_ f} hf := by
    refine frames_forest fun base table hbase htable => ?_
    have hrest := hf base
    generalize f base = x at hrest
    cases hrest with
    | same hx => exact hx base table hbase htable
    | @other items changed x hchanged hx =>
      exact (keepsFrom_framed_change (fun _ => changed) (fun _ => rfl) hbase
        (withInventory?_framed hbase hchanged)).bind fun _ => hx.framed htable

/-- A forest within the frame of a scope of `base`, with a scope inside it that is new. -/
structure Opened (grows : Bool) (scope : ScopeId) (base : Forest) (inner : ScopeId)
    (forest : Forest) : Prop extends Framed grows scope base forest where
  opened : ∃ table, forest.scope? inner = some table ∧ table.ancestors = base.chain scope

/-- What is within the frame of the outer scope goes on while a scope inside it is open. -/
theorem Frames.opened {table : Scope} {x : Evaluation α} (hx : Frames grows scope x)
    (htable : base.scope? scope = some table) : Keeps (Opened grows scope base inner) x := by
  refine hx.keeps (fun _ h => ⟨h.wellFormed, h.toFramed.scope? htable⟩) fun forest later h h' => ?_
  obtain ⟨opened, hopened, hancestors⟩ := h.opened
  obtain ⟨found, hfound, hsame⟩ := h'.frame.scope? hopened
  exact ⟨h.toFramed.trans htable h', found, hfound, hsame.trans hancestors⟩

/-- What is within the frame of the inner scope is within that of the outer one. -/
theorem Frames.inside {x : Evaluation α} (hx : Frames true inner x)
    (hnew : base.scope? inner = none) : Keeps (Opened grows scope base inner) x := by
  refine hx.keeps (fun _ h => ⟨h.wellFormed, h.opened.imp fun _ h => h.1⟩) ?_
  intro forest later h h'
  obtain ⟨opened, hopened, hancestors⟩ := h.opened
  obtain ⟨found, hfound, hsame⟩ := h'.frame.scope? hopened
  have hinner : forest.ancestors inner = base.chain scope :=
    (Forest.ancestors_of_scope? hopened).trans hancestors
  exact ⟨⟨h'.wellFormed, h.frame.inside hnew hinner h'.frame⟩, found, hfound,
    hsame.trans hancestors⟩

theorem enclose_frames {f : ScopeId → Evaluation α}
    (hf : ∀ base table inner, base.scope? scope = some table → base.scope? inner = none →
      Keeps (Opened grows scope base inner) (f inner)) :
    Frames grows scope (enclose scope >>= f) := by
  rintro base table hbase htable world rfl
  have hnew : world.forest.scope? world.forest.scopes.size = none := Array.getElem?_size
  have hgrown : Framed grows scope world.forest (world.forest.grow (some scope)).2 := by
    refine ⟨hbase.grow htable, (Forest.Frame.refl _ _ _).of_new hnew fun id hid => ?_⟩
    rw [Forest.grow_scope?, if_neg hid]
  have hopened : Opened grows scope world.forest world.forest.scopes.size
      (world.forest.grow (some scope)).2 :=
    ⟨hgrown, _, by rw [Forest.grow_scope?, if_pos rfl], rfl⟩
  have hrest := (hf world.forest table _ htable hnew _ hopened).mono fun _ h => h.toFramed
  have hstart : Framed grows scope world.forest world.forest := ⟨hbase, .refl _ _ _⟩
  exact ⟨hstart, hstart, hrest _ rfl⟩

/-- An evaluator that stays within the frame on all nodes, and adds no rows on the expressions of
sources. -/
def FramesOn (eval : Evaluator) : Prop :=
  ∀ (grows : Bool) (node : Node) (scope : ScopeId),
    (grows = false → Sourced true .expression node) → Frames grows scope (eval node scope)

theorem FramesOn.any {eval : Evaluator} (he : FramesOn eval) (node : Node) :
    Frames true scope (eval node scope) :=
  he true node scope nofun

section Parts

variable {eval : Evaluator}

theorem commands_frames (he : FramesOn eval) (nodes : List Node) :
    Frames true scope (commands eval scope nodes) := by
  induction nodes with
  | nil => exact (looks_pure _).quiet.frames
  | cons node nodes ih =>
    rw [commands]
    split
    · refine enclose_frames fun base table inner htable hnew => ?_
      exact ((he.any node).inside hnew).bind fun _ => ih.opened htable
    · exact (he.any node).bind fun _ => ih

theorem holds_frames (he : FramesOn eval) (condition : Node) (fault : TypeFault) :
    Frames true scope (holds eval scope condition fault) :=
  holds_composed (composes_frames true scope) (he.any condition) fault

theorem conditional_frames (he : FramesOn eval) (condition positive : Node)
    (negative : Option Node) :
    Frames true scope (conditional eval scope condition positive negative) := by
  refine (holds_frames he condition _).bind fun truth => ?_
  split
  · exact he.any positive
  · cases negative with
    | none => exact (looks_pure _).quiet.frames
    | some node => exact he.any node

theorem loop_frames (he : FramesOn eval) (condition body : Node) (rounds : Nat) :
    Frames true scope (loop eval scope condition body rounds) := by
  induction rounds with
  | zero => exact (quiet_stop _).frames
  | succ rounds ih =>
    refine (holds_frames he condition _).bind fun truth => ?_
    split
    · exact (he.any body).bind fun _ => ih
    · exact (looks_pure _).quiet.frames

theorem result_frames (he : FramesOn eval) (value : Option Node) :
    Frames true scope (result eval scope value) := by
  cases value with
  | none => exact (quiet_stop _).frames
  | some node =>
    refine (he.any node).bind fun result => ?_
    cases result with
    | none => exact (looks_raise _).quiet.frames
    | some operand => exact (quiet_stop _).frames

theorem call_frames (he : FramesOn eval) (name : String) {arguments : List Node}
    (ha : ∀ argument ∈ arguments, Frames grows scope (eval argument scope)) :
    Frames grows scope (call eval scope name arguments) := by
  refine (looks_resolve scope name).quiet.frames.bind fun found => ?_
  obtain ⟨owner, row⟩ := found
  dsimp only
  split
  · next f _ _ =>
    refine (composes_frames grows scope).unless ?_
    refine enclose_frames fun base table inner htable hnew => ?_
    have hbind : Keeps (Opened grows scope base inner)
        (bindParameters eval scope inner name f.parameters arguments) :=
      bindParameters_composed (composes_keeps _)
        (fun argument hmem => (ha argument hmem).opened htable)
        fun label type value => (declare_frames label type value false).inside hnew
    refine hbind.bind fun _ => ?_
    cases f.body? with
    | none => exact (looks_raise _).quiet _
    | some body =>
      have hbody : Keeps (Opened grows scope base inner) (discard (eval body inner)) := by
        change Keeps _ (eval body inner >>= fun _ => pure ())
        exact ((he.any body).inside hnew).bind fun _ => (looks_pure ()).quiet _
      exact hbody.returnedBy.bind fun returned => (looks_outcome name f.result returned).quiet _
  · exact (looks_raise _).quiet.frames
  · exact (looks_raise _).quiet.frames

theorem command_frames {node : Node} (he : FramesOn eval) (rounds : Nat)
    (hnode : node.isExpression = false) : Frames true scope (step rounds eval node scope) := by
  have ended {x : Evaluation Unit} (hx : Frames true scope x) :
      Frames true scope (x >>= fun _ => pure (none : Option Operand)) :=
    hx.bind fun _ => (looks_pure _).quiet.frames
  cases node with
  | blank | skip => exact (looks_pure _).quiet.frames
  | assignment id target value =>
    exact ended (assignment_composed (acts_frames true scope) (he.any value))
  | declaration id type label value =>
    exact ended (declaration_composed (composes_frames true scope) (fun node _ => he.any node)
      fun name type value => declare_frames name type value false)
  | function id name type parts => exact ended (declare_frames _ _ _ _)
  | block id nodes => exact ended (commands_frames he nodes)
  | conditional id condition positive negative =>
    exact conditional_frames he condition positive negative
  | loop id condition body => exact ended (loop_frames he condition body rounds)
  | result id value => exact result_frames he value
  | action id name arguments =>
    exact ended (action_composed (acts_frames true scope) (fun node _ => he.any node) name)
  | number | boolean | text | literal | identifier | binary | unary | array | access | length
  | call => cases hnode

end Parts

theorem step_framesOn {eval : Evaluator} (rounds : Nat) (he : FramesOn eval) :
    FramesOn (step rounds eval) := by
  intro grows node scope hnode
  cases hexpression : node.isExpression with
  | true =>
    have hchildren (child : Node) (hchild : child ∈ node.children) :
        Frames grows scope (eval child scope) :=
      he grows child scope fun hg => (hnode hg).operands child hchild
    refine expression_composed (composes_frames grows scope) rounds hexpression hchildren ?_
    rintro id name arguments rfl
    exact call_frames he name hchildren
  | false =>
    cases grows with
    -- commands are not among the nodes that add no rows
    | false => exact absurd (hnode rfl).isExpression (by simp [hexpression])
    | true => exact command_frames he rounds hexpression

theorem evaluate_framesOn (rounds depth : Nat) : FramesOn (evaluate rounds depth) := by
  induction depth with
  | zero => exact fun _ _ _ _ => (quiet_stop _).frames
  | succ depth ih => exact step_framesOn rounds ih

end LevelScript.Evaluation

namespace LevelScript

/-- However the evaluation of a node of a parsed source in a scope ends, the scopes that are not on
the chain of that scope are as they were, its ancestors have the same rows and only values of
variables differ, and the scope itself has its rows in the same sense and at most other rows after
them, but none if the node is an expression. -/
theorem evaluation_framed (built : Nat) (source : String) (tree node : Node)
    (state : ParseState Lexer) (h : Construct.program.parse built source = .ok (tree, state))
    (hnode : node.Within tree) (rounds depth : Nat) (world : World) (scope : ScopeId)
    (table : Scope)
    (hforest : world.forest.WellFormed) (hscope : world.forest.scope? scope = some table) :
    world.forest.Frame (!node.isExpression) scope
      ((Evaluation.evaluate rounds depth node scope).run world).2.forest := by
  obtain ⟨_, nodes, m, hreads, rfl, _⟩ := program_reads h
  have htree : Sourced true .command (.block (m + 1) nodes) := .block (hreads.sourced (.inl rfl))
  obtain ⟨role, hsourced⟩ := htree.within hnode
  have hexpression (hg : (!node.isExpression) = false) : Sourced true .expression node :=
    hsourced.expression (by simpa using hg)
  have hframes := Evaluation.evaluate_framesOn rounds depth _ node scope hexpression
  exact ((hframes.framed hscope).run ⟨hforest, .refl _ _ _⟩).frame

/-- A call of `hit` in a scope inside the one that declares it takes a point from `hp`, declared
there too, and adds no row to the scope of the call. -/
theorem call_framed :
    ∃ state node world, Construct.program.parse 0 "hit();" = .ok (.block 2 [node], state) ∧
      node.Within (.block 2 [node]) ∧ world.forest.WellFormed ∧
      world.forest.scope? 1 = some ⟨[0], [], 4⟩ ∧
      (world.forest.rows 0).map (·.value.integer?) = [some 3, none] ∧
      (((Evaluation.evaluate 1 9 node 1).run world).2.forest.rows 0).map (·.value.integer?) =
        [some 2, none] ∧
      world.forest.Frame false 1 ((Evaluation.evaluate 1 9 node 1).run world).2.forest := by
  have hwritten : Written [.identifier "hit", .symbol .leftParen, .symbol .rightParen,
      .symbol .semicolon] "hit();".toList :=
    .token (.token (.token (.token .nil)))
  obtain ⟨hfault, hwords⟩ := hwritten.words (by decide +kernel) (by decide +kernel)
  rw [String.ofList_toList] at hfault hwords
  have hreads : Reads .program 0 [.identifier "hit", .symbol .leftParen, .symbol .rightParen,
      .symbol .semicolon] [.call 1 "hit" []] 1 :=
    .programNext (by decide) (.callCommand .noItems) .programEnd
  obtain ⟨d, hparse⟩ := program_parses hfault (by rw [hwords]; exact hreads)
  have hwithin : (Node.call 1 "hit" []).Within (.block 2 [.call 1 "hit" []]) :=
    .inside (List.mem_singleton.2 rfl) (.root _)
  have hforest : Forest.WellFormed ⟨#[⟨[], [⟨"hp", .number, .number 3, 4, false⟩,
      ⟨"hit", .void, .function ⟨0, "hit", none, [.identifier 0 "hit", .block 0
        [.assignment 0 (.identifier 0 "hp") (.number 0 2)]]⟩, 8, true⟩], 12⟩, ⟨[0], [], 4⟩]⟩ := by
    constructor <;> rintro (_ | _ | id) scope hscope <;> cases hscope <;> decide
  exact ⟨_, _, ⟨_, #[], .numbered⟩, hparse, hwithin, hforest, rfl, by decide +kernel,
    by decide +kernel,
    evaluation_framed 0 "hit();" _ _ _ hparse hwithin 1 9 ⟨_, #[], .numbered⟩ 1 _ hforest rfl⟩

end LevelScript

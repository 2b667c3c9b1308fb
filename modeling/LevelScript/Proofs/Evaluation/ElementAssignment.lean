import LevelScript.Proofs.Evaluation.BlockScope
import LevelScript.Proofs.Evaluation.Independence
import LevelScript.Proofs.Evaluation.Inventory

set_option autoImplicit false

namespace LevelScript

theorem Value.ne_array_of_mem {value : Value} {items : List Value} (h : value ∈ items) :
    value ≠ .array items := by
  intro hvalue
  have hsmaller := List.sizeOf_lt_of_mem h
  have hsize := congrArg sizeOf hvalue
  rw [Value.array.sizeOf_spec] at hsize
  omega

namespace Forest

variable {forest : Forest} {scope owner : ScopeId} {name : String} {type : TypeName}

theorem Holds.assign_of_ne {value : Value} (h : forest.Holds scope name owner type value)
    {other : TypeName} (hne : type ≠ other) (new : Value) :
    forest.assign scope name other new = .error (.incompatible name type other) := by
  obtain ⟨row, hresolve, hvariable, rfl, _⟩ := h
  rw [Forest.assign, target, hresolve]
  simp only [bind, Except.bind, hvariable, Bool.false_eq_true, if_false, if_pos hne]
  rfl

theorem Holds.value_eq {left right : Value} (h : forest.Holds scope name owner type left)
    (h' : forest.Holds scope name owner type right) : left = right := by
  obtain ⟨row, hresolve, _, _, rfl⟩ := h
  obtain ⟨row', hresolve', _, _, rfl⟩ := h'
  rw [hresolve] at hresolve'
  cases hresolve'
  rfl

end Forest

namespace Evaluation

theorem run_assignment {rounds depth : Nat} {value : Node} {scope : ScopeId}
    {world between : World} {operand : Operand}
    (h : (evaluate rounds depth value scope).run world = (.ok (some operand), between))
    (id label : Nat) (name : String) :
    (evaluate rounds (depth + 1) (.assignment id (.identifier label name) value) scope).run world =
      match between.forest.assign scope name operand.type (operand.value between.forest) with
      | .ok later => (.ok none, { between with forest := later })
      | .error cause => (.error (.fault (.scope cause)), between) := by
  change (assignment (evaluate rounds depth) scope (.identifier label name) value >>=
    fun _ => pure none).run world = _
  have hassign := run_assign scope name operand.type (operand.value between.forest) between
  have hrun : (assignment (evaluate rounds depth) scope (.identifier label name) value).run world =
      (assign scope name operand.type (operand.value between.forest)).run between := by
    rw [assignment, run_bind_ok h]
    rfl
  rw [run_bind, hrun, hassign]
  cases between.forest.assign scope name operand.type (operand.value between.forest) <;> rfl

end Evaluation

/-- What `name[i] = e;` does is told by the value of `e` alone. A value that is no array is refused.
An array takes the place of the array that the name holds, whether or not the index is in its range,
and so no element is ever replaced. -/
theorem element_assignment_replaces_array (built m k : Nat) (source name : String)
    (i e : List Token) (index value : Node)
    (hfault : (TokenStream.ofSource source).fault? = none)
    (hwords : (TokenStream.ofSource source).words = .identifier name :: .symbol .leftBracket ::
      (i ++ .symbol .rightBracket :: .symbol .assign :: (e ++ [.symbol .semicolon])))
    (hindex : Reads .expression built i [index] m) (hvalue : Reads .expression m e [value] k)
    (hfree : value.CallFree) (rounds depth : Nat) (scope owner : ScopeId) (items : List Value)
    (world : World) (operand : Operand)
    (hholds : world.forest.Holds scope name owner .array (.array items))
    (hrun : ((Evaluation.evaluate rounds depth value scope).run world).1 = .ok (some operand)) :
    ∃ node state, Construct.program.parse built source = .ok (.block (k + 3) [node], state) ∧
      node = .assignment (k + 2) (.identifier (k + 1) name) value ∧
      (operand.type ≠ .array → (Evaluation.evaluate rounds (depth + 1) node scope).run world =
        (.error (.fault (.scope (.incompatible name .array operand.type))), world)) ∧
      (operand.type = .array → ∃ last,
        (Evaluation.evaluate rounds (depth + 1) node scope).run world = (.ok none, last) ∧
        last.events = world.events ∧
        last.forest.Holds scope name owner .array (operand.value world.forest) ∧
        (∀ id other, ¬ (id = owner ∧ other = name) →
          last.forest.row? id other = world.forest.row? id other) ∧
        ∀ j < items.length, ¬ last.forest.Holds scope name owner .array
          (.array (items.set j (operand.value world.forest)))) := by
  have hreads : Reads .program built (TokenStream.ofSource source).words
      [.assignment (k + 2) (.identifier (k + 1) name) value] (k + 2) := by
    rw [hwords]
    simpa only [List.append_nil] using
      Reads.programNext (by decide) (.elementAssignment hindex hvalue) .programEnd
  obtain ⟨d, hparse⟩ := program_parses hfault hreads
  have hsourced : Sourced true .expression value :=
    hvalue.sourced (.inl rfl) value List.mem_cons_self
  have hstill := (Evaluation.evaluate_stillOn rounds depth value scope hsourced hfree).run world
  have hassignment := Evaluation.run_assignment (Prod.ext hrun hstill) (k + 2) (k + 1) name
  refine ⟨_, _, hparse, rfl, ?_, ?_⟩
  · intro htype
    rw [hassignment, hholds.assign_of_ne (Ne.symm htype)]
  · intro htype
    rw [hassignment, htype, hholds.assign]
    have hlast := hholds.write (operand.value world.forest)
    refine ⟨_, rfl, rfl, hlast, fun id other hother => Forest.row?_write_of_ne _ hother _, ?_⟩
    -- the array written would be one of its own elements
    intro j hj hset
    exact Value.ne_array_of_mem (List.mem_set hj _) (hlast.value_eq hset)

/-- The array `a` of two arrays is to get `[7]` as its second element, and it becomes `[7]`. -/
theorem nested_array_replaced :
    ∃ (node : Node) (state : ParseState Lexer) (world last : World),
      Construct.program.parse 0 "a[1]=[7];" = .ok (.block 6 [node], state) ∧
      world.forest.Holds 0 "a" 0 .array (.array [.array [.number 1], .array [.number 2]]) ∧
      (Evaluation.evaluate 1 9 node 0).run world = (.ok none, last) ∧
      last.forest.Holds 0 "a" 0 .array (.array [.number 7]) ∧
      ¬ last.forest.Holds 0 "a" 0 .array (.array [.array [.number 1], .array [.number 7]]) := by
  have hwritten : Written [.identifier "a", .symbol .leftBracket, .number 1, .symbol .rightBracket,
      .symbol .assign, .symbol .leftBracket, .number 7, .symbol .rightBracket, .symbol .semicolon]
      "a[1]=[7];".toList :=
    .token (.token (.token (.token (.token (.token (.token (.token (.token .nil))))))))
  obtain ⟨hfault, hwords⟩ := hwritten.words (by decide +kernel) (by decide +kernel)
  rw [String.ofList_toList] at hfault hwords
  have hnumber {n value : Nat} : Reads .expression n [.number value] [.number (n + 1) value]
      (n + 1) :=
    Reads.loosen (k := .factor) .number (by decide)
  have hvalue : Reads .expression 1 [.symbol .leftBracket, .number 7, .symbol .rightBracket]
      [.array 3 [.number 2 7]] 3 :=
    Reads.loosen (k := .factor) (.array (.someItems (.itemLast hnumber))) (by decide)
  have hfree : (Node.array 3 [.number 2 7]).CallFree :=
    .of_children nofun (List.forall_mem_singleton.2 (.of_children nofun nofun))
  let world : World := ⟨⟨#[⟨[], [⟨"a", .array, .array [.array [.number 1], .array [.number 2]], 4,
    false⟩], 8⟩]⟩, #[], .numbered⟩
  have hholds : world.forest.Holds 0 "a" 0 .array
      (.array [.array [.number 1], .array [.number 2]]) :=
    ⟨_, rfl, rfl, rfl, rfl⟩
  obtain ⟨node, state, hparse, rfl, _, harray⟩ := element_assignment_replaces_array 0 1 3
    "a[1]=[7];" "a" [.number 1] [.symbol .leftBracket, .number 7, .symbol .rightBracket] _ _ hfault
    hwords hnumber hvalue hfree 1 8 0 0 _ world (.temporary .array (.array [.number 7])) hholds rfl
  obtain ⟨last, hrun, _, hlast, _, hnever⟩ := harray rfl
  exact ⟨_, state, world, last, hparse, hholds, hrun, hlast, hnever 1 (by decide)⟩

/-- The second of three numbers is to become nine. The statement fails, and the array is kept. -/
theorem element_kept :
    let report := (Session.start.run .numbered "a: array = [1, 2, 3]; a[1] = 9;").1
    report.outcome.fault? = some (.scope (.incompatible "a" .array .number)) ∧
      report.globals.map (fun row => (row.name, row.value.items?.map (List.map Value.integer?))) =
        [("a", some [some 1, some 2, some 3])] := by
  decide +kernel

end LevelScript

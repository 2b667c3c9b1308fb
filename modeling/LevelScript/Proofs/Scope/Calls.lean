import LevelScript.Proofs.Evaluation.Logic
import LevelScript.Proofs.Scope.Lookup

set_option autoImplicit false

/-!
# Calls on scopes

Scopes are opened, and rows are declared in them, assigned to and looked up, in any order and in any
of the scopes. One call is described by what it makes of a forest; what holds after all of them
follows call by call. The parents of the scopes are read off the calls.
-/

namespace LevelScript

/-- What can be done with the scopes of a world. -/
inductive ScopeCall where
  /-- A new scope inside another one, or one that stands alone. -/
  | enclose (parent : Option ScopeId)
  | declare (scope : ScopeId) (name : String) (type : TypeName) (value : Value) (isFunction : Bool)
  | assign (scope : ScopeId) (name : String) (type : TypeName) (value : Value)
  | resolve (scope : ScopeId) (name : String)
  deriving Repr

namespace ScopeCall

def perform : ScopeCall → Evaluation (Option (ScopeId × Row))
  | .enclose none => do
    Evaluation.change fun world => { world with forest := (world.forest.grow none).2 }
    return none
  | .enclose (some parent) => do
    let _ ← Evaluation.enclose parent
    return none
  | .declare scope name type value isFunction => do
    Evaluation.declare scope name type value isFunction
    return none
  | .assign scope name type value => do
    Evaluation.assign scope name type value
    return none
  | .resolve scope name => do
    return some (← Evaluation.resolve scope name)

def scope? : ScopeCall → Option ScopeId
  | .enclose parent => parent
  | .declare scope _ _ _ _ | .assign scope _ _ _ | .resolve scope _ => some scope

def parent? : ScopeCall → Option (Option ScopeId)
  | .enclose parent => some parent
  | _ => none

def outcome (forest : Forest) : ScopeCall → Except ScopeFault (Option (ScopeId × Row) × Forest)
  | .enclose parent => .ok (none, (forest.grow parent).2)
  | .declare scope name type value isFunction =>
    (forest.declare scope name type value isFunction).map (none, ·)
  | .assign scope name type value => (forest.assign scope name type value).map (none, ·)
  | .resolve scope name => (forest.resolve scope name).map fun found => (some found, forest)

theorem perform_run (call : ScopeCall) (world : World) :
    call.perform.run world =
      match call.outcome world.forest with
      | .ok (result, later) => (.ok result, { world with forest := later })
      | .error cause => (.error (.fault (.scope cause)), world) := by
  cases call with
  | enclose parent => cases parent <;> rfl
  | declare scope name type value isFunction =>
    simp only [perform, outcome, Evaluation.run_bind, Evaluation.run_declare]
    cases world.forest.declare scope name type value isFunction <;> rfl
  | assign scope name type value =>
    simp only [perform, outcome, Evaluation.run_bind, Evaluation.run_assign]
    cases world.forest.assign scope name type value <;> rfl
  | resolve scope name =>
    simp only [perform, outcome, Evaluation.run_bind, Evaluation.run_resolve]
    cases world.forest.resolve scope name <;> rfl

end ScopeCall

namespace World

def empty (titles : Titles) : World :=
  ⟨.empty, #[], titles⟩

def after (world : World) (call : ScopeCall) : World :=
  (call.perform.run world).2

def afterAll (world : World) (calls : List ScopeCall) : World :=
  calls.foldl after world

/-- Each call names a scope that is there when its turn comes. -/
def Admits (world : World) : List ScopeCall → Prop
  | [] => True
  | call :: calls =>
    (∀ id ∈ call.scope?, id < world.forest.scopes.size) ∧ (world.after call).Admits calls

theorem after_forest (world : World) (call : ScopeCall) :
    (world.after call).forest =
      match call.outcome world.forest with
      | .ok (_, later) => later
      | .error _ => world.forest := by
  rw [after, call.perform_run]
  cases call.outcome world.forest <;> rfl

end World

namespace ScopeCall

/-- What a call that succeeds makes of a forest. -/
inductive Effect (forest : Forest) : ScopeCall → Forest → Prop where
  | enclose (parent : Option ScopeId) : Effect forest (.enclose parent) (forest.grow parent).2
  | declare {scope : ScopeId} {name : String} {type : TypeName} {value started : Value}
      {isFunction : Bool} {table : Scope} :
      forest.scope? scope = some table → table.row? name = none →
      Effect forest (.declare scope name type value isFunction)
        (forest.add scope ⟨name, type, started, table.nextShift, isFunction⟩)
  | assign {scope owner : ScopeId} {name : String} {type : TypeName} {value : Value} :
      forest.target scope name type = .ok owner →
      Effect forest (.assign scope name type value) (forest.write owner name value)
  | resolve {scope : ScopeId} {name : String} : Effect forest (.resolve scope name) forest

theorem outcome_effect {call : ScopeCall} {forest later : Forest} {result : Option (ScopeId × Row)}
    (h : call.outcome forest = .ok (result, later)) : call.Effect forest later := by
  cases call with
  | enclose parent =>
    cases h
    exact .enclose parent
  | declare scope name type value isFunction =>
    rw [outcome, Forest.declare] at h
    cases hrow : forest.newRow scope name type value isFunction with
    | error cause => rw [hrow] at h; cases h
    | ok row =>
      rw [hrow] at h
      cases h
      obtain ⟨table, started, htable, hnone, _, rfl⟩ := Forest.newRow_eq hrow
      exact .declare htable hnone
  | assign scope name type value =>
    rw [outcome] at h
    cases hassign : forest.assign scope name type value with
    | error cause => rw [hassign] at h; cases h
    | ok changed =>
      rw [hassign] at h
      cases h
      obtain ⟨owner, howner, rfl⟩ := Forest.assign_eq hassign
      exact .assign howner
  | resolve scope name =>
    rw [outcome] at h
    cases hfound : forest.resolve scope name with
    | error cause => rw [hfound] at h; cases h
    | ok found =>
      rw [hfound] at h
      cases h
      exact .resolve

/-- The call assigns to the row that a scope has for a name. -/
def Changes (owner : ScopeId) (name : String) (forest : Forest) (call : ScopeCall) : Prop :=
  ∃ scope type value,
    call = .assign scope name type value ∧ forest.target scope name type = .ok owner

namespace Effect

variable {forest later : Forest} {call : ScopeCall}

theorem ordered (h : call.Effect forest later) (hforest : forest.Ordered) : later.Ordered := by
  cases h with
  | enclose parent => exact hforest.grow parent
  | declare htable hnone => exact hforest.add htable hnone rfl
  | assign _ => exact hforest.write _ _ _
  | resolve => exact hforest

theorem linked {parents : List (Option ScopeId)} (h : call.Effect forest later)
    (hforest : forest.Linked parents) (hscope : ∀ id ∈ call.scope?, id < forest.scopes.size) :
    later.Linked (parents ++ call.parent?.toList) := by
  cases h with
  | enclose parent => exact hforest.grow hscope
  | declare _ _ =>
    simp only [parent?, Option.toList_none, List.append_nil]
    exact hforest.of_ancestors (by simp [Forest.add]) fun id => Forest.ancestors_add _ _ id _
  | assign _ =>
    simp only [parent?, Option.toList_none, List.append_nil]
    exact hforest.of_ancestors (by simp [Forest.write]) fun id => Forest.ancestors_write _ _ id _ _
  | resolve =>
    simp only [parent?, Option.toList_none, List.append_nil]
    exact hforest

/-- Rows are only added to or written to. -/
theorem rows_cases (h : call.Effect forest later) (id : ScopeId) :
    forest.rows id <+: later.rows id ∨
      ∃ owner name value, call.Changes owner name forest ∧
        later = forest.write owner name value := by
  cases h with
  | enclose parent => exact .inl (forest.rows_grow_leads parent id)
  | declare htable _ =>
    rw [Forest.rows_add htable]
    split
    · exact .inl (List.prefix_append _ _)
    · exact .inl List.prefix_rfl
  | assign htarget => exact .inr ⟨_, _, _, ⟨_, _, _, rfl, htarget⟩, rfl⟩
  | resolve => exact .inl List.prefix_rfl

theorem row_kept (h : call.Effect forest later) {id : ScopeId} {k : Nat} {row : Row}
    (hrow : (forest.rows id)[k]? = some row) :
    ∃ value, (later.rows id)[k]? = some { row with value := value } := by
  rcases h.rows_cases id with hleads | ⟨owner, name, value, _, rfl⟩
  · have hk := (List.getElem?_eq_some_iff.1 hrow).1
    obtain ⟨added, hadded⟩ := hleads
    rw [← hadded, List.getElem?_append_left hk]
    exact ⟨row.value, hrow⟩
  · rw [Forest.rows_write]
    by_cases hchanged : owner = id ∧ row.name = name
    · rw [if_pos hchanged.1, List.getElem?_map, hrow, Option.map_some, if_pos hchanged.2]
      exact ⟨value, rfl⟩
    · refine ⟨row.value, ?_⟩
      by_cases howner : owner = id
      · have hname : row.name ≠ name := fun h => hchanged ⟨howner, h⟩
        rw [if_pos howner, List.getElem?_map, hrow, Option.map_some, if_neg hname]
      · rw [if_neg howner, hrow]

theorem row?_kept (h : call.Effect forest later) {owner : ScopeId} {name : String} {row : Row}
    (hspared : ¬ call.Changes owner name forest) (hrow : forest.row? owner name = some row) :
    later.row? owner name = some row := by
  rcases h.rows_cases owner with hleads | ⟨other, written, value, hchanges, rfl⟩
  · rw [Forest.row?_eq_find?] at hrow ⊢
    exact hleads.find?_eq_some hrow
  · have hother : ¬ (other = owner ∧ name = written) := by
      rintro ⟨rfl, rfl⟩
      exact hspared hchanges
    rw [Forest.row?_write, hrow, Option.map_some, if_neg hother]

end Effect

end ScopeCall

namespace World

theorem after_cases (world : World) (call : ScopeCall) :
    call.Effect world.forest (world.after call).forest ∨
      (world.after call).forest = world.forest ∧ call.parent? = none := by
  rw [after_forest]
  cases houtcome : call.outcome world.forest with
  | ok result => exact .inl (ScopeCall.outcome_effect houtcome)
  | error cause =>
    refine .inr ⟨rfl, ?_⟩
    cases call with
    | enclose parent => cases houtcome
    | declare | assign | resolve => rfl

theorem after_ordered {world : World} (h : world.forest.Ordered) (call : ScopeCall) :
    (world.after call).forest.Ordered := by
  rcases world.after_cases call with heffect | ⟨hsame, _⟩
  · exact heffect.ordered h
  · rw [hsame]
    exact h

theorem after_linked {world : World} {parents : List (Option ScopeId)} {call : ScopeCall}
    (h : world.forest.Linked parents)
    (hscope : ∀ id ∈ call.scope?, id < world.forest.scopes.size) :
    (world.after call).forest.Linked (parents ++ call.parent?.toList) := by
  rcases world.after_cases call with heffect | ⟨hsame, hparent⟩
  · exact heffect.linked h hscope
  · rw [hsame, hparent, Option.toList_none, List.append_nil]
    exact h

theorem after_row {world : World} {id : ScopeId} {k : Nat} {row : Row}
    (hrow : (world.forest.rows id)[k]? = some row) (call : ScopeCall) :
    ∃ value, ((world.after call).forest.rows id)[k]? = some { row with value := value } := by
  rcases world.after_cases call with heffect | ⟨hsame, _⟩
  · exact heffect.row_kept hrow
  · rw [hsame]
    exact ⟨row.value, hrow⟩

theorem after_row? {world : World} {owner : ScopeId} {name : String} {row : Row} {call : ScopeCall}
    (hspared : ¬ call.Changes owner name world.forest)
    (hrow : world.forest.row? owner name = some row) :
    (world.after call).forest.row? owner name = some row := by
  rcases world.after_cases call with heffect | ⟨hsame, _⟩
  · exact heffect.row?_kept hspared hrow
  · rw [hsame]
    exact hrow

def Spares (owner : ScopeId) (name : String) (world : World) : List ScopeCall → Prop
  | [] => True
  | call :: calls =>
    ¬ call.Changes owner name world.forest ∧ (world.after call).Spares owner name calls

theorem afterAll_ordered {world : World} (h : world.forest.Ordered) (calls : List ScopeCall) :
    (world.afterAll calls).forest.Ordered := by
  induction calls generalizing world with
  | nil => exact h
  | cons call calls ih => exact ih (after_ordered h call)

theorem afterAll_linked {world : World} {parents : List (Option ScopeId)} {calls : List ScopeCall}
    (h : world.forest.Linked parents) (hcalls : world.Admits calls) :
    (world.afterAll calls).forest.Linked (parents ++ calls.filterMap ScopeCall.parent?) := by
  induction calls generalizing world parents with
  | nil =>
    rw [List.filterMap_nil, List.append_nil]
    exact h
  | cons call calls ih =>
    have hlinked := ih (after_linked h hcalls.1) hcalls.2
    cases hparent : call.parent? <;>
      simpa [hparent, afterAll, List.filterMap_cons] using hlinked

theorem afterAll_row {world : World} {id : ScopeId} {k : Nat} {row : Row}
    (hrow : (world.forest.rows id)[k]? = some row) (calls : List ScopeCall) :
    ∃ value, ((world.afterAll calls).forest.rows id)[k]? = some { row with value := value } := by
  induction calls generalizing world row with
  | nil => exact ⟨row.value, hrow⟩
  | cons call calls ih =>
    obtain ⟨value, hvalue⟩ := after_row hrow call
    obtain ⟨last, hlast⟩ := ih hvalue
    exact ⟨last, hlast⟩

theorem afterAll_row? {world : World} {owner : ScopeId} {name : String} {row : Row}
    {calls : List ScopeCall} (hspared : world.Spares owner name calls)
    (hrow : world.forest.row? owner name = some row) :
    (world.afterAll calls).forest.row? owner name = some row := by
  induction calls generalizing world with
  | nil => exact hrow
  | cons call calls ih => exact ih hspared.2 (after_row? hspared.1 hrow)

end World

/-- What an assignment to a row does: the value of that one row changes. Who finds the row now finds
the new value, also later as long as the row is not assigned to again; who does not find it finds
what was found before. -/
structure World.Assigned (parents : List (Option ScopeId)) (world later : World) (name : String)
    (owner : ScopeId) (row : Row) (value : Value) : Prop where
  changed : ∃ k, (world.forest.rows owner)[k]? = some row ∧
    later.forest.rows owner = (world.forest.rows owner).set k { row with value := value }
  others : ∀ id, id ≠ owner → later.forest.rows id = world.forest.rows id
  seen : ∀ id, id < world.forest.scopes.size → world.forest.Nearest parents name id owner row →
    (ScopeCall.resolve id name).perform.run later =
      (.ok (some (owner, { row with value := value })), later)
  unseen : ∀ id, id < world.forest.scopes.size → ¬ world.forest.Nearest parents name id owner row →
    ((ScopeCall.resolve id name).perform.run later).1 =
      ((ScopeCall.resolve id name).perform.run world).1
  lasting : ∀ calls id found, later.Spares owner name calls →
    (ScopeCall.resolve id name).perform.run (later.afterAll calls) =
      (.ok (some (owner, found)), later.afterAll calls) →
    found = { row with value := value }

namespace World

theorem run_resolve_ok {world : World} {id : ScopeId} {name : String} {found : ScopeId × Row}
    (h : world.forest.resolve id name = .ok found) :
    (ScopeCall.resolve id name).perform.run world = (.ok (some found), world) := by
  rw [ScopeCall.perform_run, ScopeCall.outcome, h]
  rfl

theorem run_resolve_iff (world later : World) (id : ScopeId) (name : String)
    (found : ScopeId × Row) :
    (ScopeCall.resolve id name).perform.run world = (.ok (some found), later) ↔
      later = world ∧ world.forest.resolve id name = .ok found := by
  rw [ScopeCall.perform_run, ScopeCall.outcome]
  cases world.forest.resolve id name with
  | error cause => simp [Except.map]
  | ok other =>
    simp only [Except.map, Prod.mk.injEq, Except.ok.injEq, Option.some.injEq]
    constructor
    · rintro ⟨rfl, rfl⟩
      exact ⟨rfl, rfl⟩
    · rintro ⟨rfl, rfl⟩
      exact ⟨rfl, rfl⟩

theorem run_assign_iff (world later : World) (id : ScopeId) (name : String) (type : TypeName)
    (value : Value) :
    (ScopeCall.assign id name type value).perform.run world = (.ok none, later) ↔
      ∃ owner, world.forest.target id name type = .ok owner ∧
        later = { world with forest := world.forest.write owner name value } := by
  rw [ScopeCall.perform_run, ScopeCall.outcome, Forest.assign]
  cases world.forest.target id name type with
  | error cause => simp [bind, Except.bind, Except.map]
  | ok owner => simp [bind, Except.bind, pure, Except.pure, Except.map, eq_comm]

theorem assigned_write {parents : List (Option ScopeId)} {world : World} {id owner : ScopeId}
    {name : String} {row : Row} (hordered : world.forest.Ordered)
    (hlinked : world.forest.Linked parents) (value : Value)
    (hfound : world.forest.resolve id name = .ok (owner, row)) :
    world.Assigned parents { world with forest := world.forest.write owner name value } name owner
      row value := by
  have hrow : world.forest.row? owner name = some row := Forest.resolve_row? hfound
  constructor
  case changed =>
    cases hscope : world.forest.scope? owner with
    | none =>
      rw [Forest.row?, hscope] at hrow
      cases hrow
    | some scope =>
      have hrows : world.forest.rows owner = scope.rows := by
        rw [Forest.rows, hscope]
        rfl
      rw [Forest.row?, hscope] at hrow
      obtain ⟨hmem, rfl⟩ := Scope.row?_mem hrow
      obtain ⟨k, hk⟩ := List.mem_iff_getElem?.1 hmem
      refine ⟨k, hrows ▸ hk, ?_⟩
      rw [Forest.rows_write, if_pos rfl, hrows]
      exact Row.map_name_eq_set value (hordered owner scope hscope).names hk
  case others =>
    intro other hother
    rw [Forest.rows_write, if_neg (Ne.symm hother)]
  case seen =>
    intro id hid hnearest
    have hresolve := (hlinked.resolve_iff name id hid owner row).2 hnearest
    apply run_resolve_ok
    rw [Forest.resolve_write, hresolve]
    simp [Except.map]
  case unseen =>
    intro id hid hnearest
    rw [ScopeCall.perform_run, ScopeCall.perform_run, ScopeCall.outcome, ScopeCall.outcome,
      Forest.resolve_write]
    cases hresolve : world.forest.resolve id name with
    | error cause => rfl
    | ok found =>
      have howner : owner ≠ found.1 := by
        intro hsame
        have hfound : world.forest.row? owner name = some found.2 := by
          rw [hsame]
          exact Forest.resolve_row? hresolve
        have heq : found = (owner, row) :=
          Prod.ext hsame.symm (Option.some.inj (hfound.symm.trans hrow))
        exact hnearest ((hlinked.resolve_iff name id hid owner row).1 (heq ▸ hresolve))
      simp [Except.map, howner]
  case lasting =>
    intro calls id found hspared hrun
    have hlater := Forest.resolve_row? ((run_resolve_iff _ _ _ _ _).1 hrun).2
    have hwritten : (world.forest.write owner name value).row? owner name =
        some { row with value := value } := by
      rw [Forest.row?_write, hrow, Option.map_some, if_pos ⟨rfl, rfl⟩]
    have hkept := afterAll_row? hspared hwritten
    exact Option.some.inj (hlater.symm.trans hkept)

theorem run_declare_rows {world later : World} {id : ScopeId} {name : String} {type : TypeName}
    {value : Value} {isFunction : Bool} (hordered : world.forest.Ordered)
    (hrun : (ScopeCall.declare id name type value isFunction).perform.run world =
      (.ok none, later)) :
    (∃ started, later.forest.rows id = world.forest.rows id ++
      [⟨name, type, started, 4 * ((world.forest.rows id).length + 1), isFunction⟩]) ∧
    ∀ other, other ≠ id → later.forest.rows other = world.forest.rows other := by
  rw [ScopeCall.perform_run] at hrun
  cases houtcome : (ScopeCall.declare id name type value isFunction).outcome world.forest with
  | error cause => simp [houtcome] at hrun
  | ok result =>
    obtain ⟨_, made⟩ := result
    simp only [houtcome, Prod.mk.injEq] at hrun
    rw [← hrun.2]
    cases ScopeCall.outcome_effect houtcome with
    | @declare _ _ _ _ started _ table htable _ =>
      have hnext := (hordered id table htable).nextShift
      have hrows : world.forest.rows id = table.rows := by
        rw [Forest.rows, htable]
        rfl
      constructor
      · refine ⟨started, ?_⟩
        rw [Forest.rows_add htable, if_pos rfl, hrows, hnext, Nat.mul_add, Nat.add_comm]
      · intro other hother
        rw [Forest.rows_add htable, if_neg (Ne.symm hother)]

theorem run_error_eq {world later : World} {call : ScopeCall} {reason : Stop}
    (hrun : call.perform.run world = (.error reason, later)) : later = world := by
  rw [ScopeCall.perform_run] at hrun
  cases houtcome : call.outcome world.forest with
  | error cause =>
    simp only [houtcome, Prod.mk.injEq] at hrun
    exact hrun.2.symm
  | ok result => simp [houtcome] at hrun

end World

/-- After any calls on scopes that are there, names and shifts of every scope are in order, and all
rows have kept their places and everything but their values. A lookup and an assignment mean the row
of the nearest scope that has the name, a declaration adds one row at the end, and a call that fails
leaves the world as it was. -/
theorem scopes_consistent (titles : Titles) (calls : List ScopeCall)
    (h : (World.empty titles).Admits calls) :
    let parents := calls.filterMap ScopeCall.parent?
    let world := (World.empty titles).afterAll calls
    world.forest.Ordered ∧
    (∀ before after, calls = before ++ after → ∀ (id : ScopeId) (k : Nat) (row : Row),
      (((World.empty titles).afterAll before).forest.rows id)[k]? = some row →
        ∃ value, (world.forest.rows id)[k]? = some { row with value := value }) ∧
    (∀ id name, id < world.forest.scopes.size →
      (∀ owner row later,
        (ScopeCall.resolve id name).perform.run world = (.ok (some (owner, row)), later) ↔
          later = world ∧ world.forest.Nearest parents name id owner row) ∧
      ∀ type value,
        ((∃ later, (ScopeCall.assign id name type value).perform.run world = (.ok none, later)) ↔
          ∃ owner row, world.forest.Nearest parents name id owner row ∧
            row.isFunction = false ∧ row.type = type) ∧
        ∀ later owner row,
          (ScopeCall.assign id name type value).perform.run world = (.ok none, later) →
          world.forest.Nearest parents name id owner row →
          world.Assigned parents later name owner row value) ∧
    (∀ id name type value isFunction later,
      (ScopeCall.declare id name type value isFunction).perform.run world = (.ok none, later) →
      (∃ started, later.forest.rows id = world.forest.rows id ++
        [⟨name, type, started, 4 * ((world.forest.rows id).length + 1), isFunction⟩]) ∧
      ∀ other, other ≠ id → later.forest.rows other = world.forest.rows other) ∧
    ∀ (call : ScopeCall) (reason : Stop) (later : World),
      call.perform.run world = (.error reason, later) → later = world := by
  intro parents world
  have hordered : world.forest.Ordered :=
    World.afterAll_ordered Forest.Ordered.empty calls
  have hlinked : world.forest.Linked parents := World.afterAll_linked Forest.Linked.empty h
  refine ⟨hordered, ?_, ?_, ?_, ?_⟩
  · intro before after hcalls id k row hrow
    have hworld : world = ((World.empty titles).afterAll before).afterAll after := by
      simp only [world, hcalls, World.afterAll, List.foldl_append]
    rw [hworld]
    exact World.afterAll_row hrow after
  · intro id name hid
    have hresolve := hlinked.resolve_iff name id hid
    refine ⟨?_, ?_⟩
    · intro owner row later
      rw [World.run_resolve_iff, hresolve]
    · intro type value
      constructor
      · simp only [World.run_assign_iff, Forest.target_iff, hresolve]
        constructor
        · rintro ⟨later, owner, ⟨row, hrow⟩, _⟩
          exact ⟨owner, row, hrow⟩
        · rintro ⟨owner, row, hrow⟩
          exact ⟨_, owner, ⟨row, hrow⟩, rfl⟩
      · intro later owner row hrun hnearest
        rw [World.run_assign_iff] at hrun
        obtain ⟨target, htarget, rfl⟩ := hrun
        obtain ⟨found, hfound, _, _⟩ := (Forest.target_iff _ _ _ _ _).1 htarget
        -- the row that is assigned to is the nearest one
        have hsame := (hresolve owner row).2 hnearest
        rw [hsame] at hfound
        cases hfound
        exact World.assigned_write hordered hlinked value hsame
  · intro id name type value isFunction later hrun
    exact World.run_declare_rows hordered hrun
  · intro call reason later hrun
    exact World.run_error_eq hrun

/-- Two of three scopes, one inside the other, have a row of one name, and a second declaration of it
fails: an assignment from the innermost one changes the row of the middle one. -/
theorem scopes_consistent_shadowed :
    let calls : List ScopeCall :=
      [.enclose none, .declare 0 "hp" .number (.number 3) false, .enclose (some 0),
        .enclose (some 1), .declare 1 "hp" .text (.text "low") false,
        .declare 1 "hp" .number (.number 9) false, .assign 2 "hp" .text (.text "high")]
    let world := (World.empty .numbered).afterAll calls
    (World.empty .numbered).Admits calls ∧ world.forest.Ordered ∧
      ∃ later,
        (ScopeCall.assign 2 "hp" .text (.text "gone")).perform.run world = (.ok none, later) ∧
        world.Assigned [none, some 0, some 1] later "hp" 1
          ⟨"hp", .text, .text "high", 4, false⟩ (.text "gone") := by
  intro calls world
  have hadmits : (World.empty .numbered).Admits calls := by
    simp only [calls, World.Admits]
    decide
  have hnearest : world.forest.Nearest [none, some 0, some 1] "hp" 2 1
      ⟨"hp", .text, .text "high", 4, false⟩ := .above rfl rfl (.here rfl)
  obtain ⟨hordered, _, hnames, _⟩ := scopes_consistent _ calls hadmits
  have hassign := (hnames 2 "hp" (by decide)).2 .text (.text "gone")
  obtain ⟨later, hlater⟩ := hassign.1.2 ⟨1, _, hnearest, rfl, rfl⟩
  exact ⟨hadmits, hordered, later, hlater, hassign.2 later 1 _ hlater hnearest⟩

end LevelScript

import LevelScript.Proofs.Evaluation.Frame

set_option autoImplicit false

namespace LevelScript

namespace Scope

/-- Names are not repeated, and shifts go up in steps of four from the first row on. -/
structure Ordered (scope : Scope) : Prop where
  names : (scope.rows.map Row.name).Nodup
  shifts : ∀ k row, scope.rows[k]? = some row → row.shift = 4 * (k + 1)
  nextShift : scope.nextShift = 4 + 4 * scope.rows.length

theorem Ordered.empty (ancestors : List ScopeId) : (Scope.empty ancestors).Ordered :=
  ⟨List.nodup_nil, nofun, rfl⟩

theorem Ordered.write {scope : Scope} (h : scope.Ordered) (name : String) (value : Value) :
    (scope.write name value).Ordered := by
  constructor
  · rw [names_write]
    exact h.names
  · intro k row hrow
    simp only [Scope.write, List.getElem?_map, Option.map_eq_some_iff] at hrow
    obtain ⟨before, hbefore, rfl⟩ := hrow
    have hshift := h.shifts k before hbefore
    split <;> exact hshift
  · simpa [Scope.write] using h.nextShift

theorem Ordered.add {scope : Scope} {row : Row} (h : scope.Ordered)
    (hnone : scope.row? row.name = none) (hshift : row.shift = scope.nextShift) :
    (scope.add row).Ordered := by
  have hnext := h.nextShift
  constructor
  · exact nodup_add h.names hnone
  · intro k found hfound
    by_cases hk : k < scope.rows.length
    · rw [Scope.add, List.getElem?_append_left hk] at hfound
      exact h.shifts k found hfound
    · rw [Scope.add, List.getElem?_append_right (by omega)] at hfound
      have hlast : k - scope.rows.length = 0 := by
        by_contra hne
        simp [hne] at hfound
      simp only [hlast, List.getElem?_cons_zero, Option.some.injEq] at hfound
      have hk : k = scope.rows.length := by omega
      rw [← hfound, hshift, hnext, hk]
      omega
  · simp only [Scope.add, List.length_append, List.length_singleton, hnext]
    omega

end Scope

namespace Forest

def Ordered (forest : Forest) : Prop :=
  ∀ id scope, forest.scope? id = some scope → scope.Ordered

theorem Ordered.empty : Forest.empty.Ordered :=
  nofun

theorem Ordered.write {forest : Forest} (h : forest.Ordered) (owner : ScopeId) (name : String)
    (value : Value) : (forest.write owner name value).Ordered := by
  intro id scope hscope
  rw [write_scope?] at hscope
  split at hscope
  · obtain ⟨before, hbefore, rfl⟩ := Option.map_eq_some_iff.1 hscope
    exact (h id before hbefore).write name value
  · exact h id scope hscope

theorem Ordered.add {forest : Forest} {owner : ScopeId} {table : Scope} {row : Row}
    (h : forest.Ordered) (htable : forest.scope? owner = some table)
    (hnone : table.row? row.name = none) (hshift : row.shift = table.nextShift) :
    (forest.add owner row).Ordered := by
  intro id scope hscope
  rw [add_scope?] at hscope
  split at hscope
  · next hsame =>
    subst hsame
    rw [htable, Option.map_some, Option.some.injEq] at hscope
    exact hscope ▸ (h owner table htable).add hnone hshift
  · exact h id scope hscope

theorem Ordered.grow {forest : Forest} (h : forest.Ordered) (parent : Option ScopeId) :
    (forest.grow parent).2.Ordered := by
  intro id scope hscope
  rw [grow_scope?] at hscope
  split at hscope
  · cases hscope
    exact .empty _
  · exact h id scope hscope

/-- Where each scope was opened inside its parent, the ancestors of a scope are the parent and the
parent's ancestors. -/
structure Linked (parents : List (Option ScopeId)) (forest : Forest) : Prop where
  size : parents.length = forest.scopes.size
  ancestors : ∀ id parent, parents[id]? = some parent →
    forest.ancestors id = (parent.map forest.chain).getD []
  older : ∀ id parent : ScopeId, parents[id]? = some (some parent) → parent < id

theorem Linked.empty : Forest.empty.Linked [] :=
  ⟨rfl, nofun, nofun⟩

theorem ancestors_write (forest : Forest) (owner id : ScopeId) (name : String) (value : Value) :
    (forest.write owner name value).ancestors id = forest.ancestors id := by
  rw [ancestors, write_scope?, ancestors]
  split
  · cases forest.scope? id <;> rfl
  · rfl

theorem chain_write (forest : Forest) (owner id : ScopeId) (name : String) (value : Value) :
    (forest.write owner name value).chain id = forest.chain id :=
  congrArg (id :: ·) (ancestors_write forest owner id name value)

theorem ancestors_add (forest : Forest) (owner id : ScopeId) (row : Row) :
    (forest.add owner row).ancestors id = forest.ancestors id := by
  rw [ancestors, add_scope?, ancestors]
  split
  · cases forest.scope? id <;> rfl
  · rfl

theorem ancestors_grow (forest : Forest) (parent : Option ScopeId) (id : ScopeId) :
    (forest.grow parent).2.ancestors id =
      if id = forest.scopes.size then (parent.map forest.chain).getD []
      else forest.ancestors id := by
  rw [ancestors, grow_scope?, ancestors]
  split <;> rfl

theorem Linked.of_ancestors {parents : List (Option ScopeId)} {forest later : Forest}
    (h : forest.Linked parents) (hsize : later.scopes.size = forest.scopes.size)
    (hancestors : ∀ id, later.ancestors id = forest.ancestors id) : later.Linked parents := by
  have hchain : later.chain = forest.chain := funext fun id => congrArg (id :: ·) (hancestors id)
  refine ⟨h.size.trans hsize.symm, ?_, h.older⟩
  intro id parent hparent
  rw [hancestors, hchain]
  exact h.ancestors id parent hparent

theorem parent_cases {parents : List (Option ScopeId)} {parent above : Option ScopeId} {id : Nat}
    (h : (parents ++ [parent])[id]? = some above) :
    id < parents.length ∧ parents[id]? = some above ∨ id = parents.length ∧ above = parent := by
  by_cases hid : id < parents.length
  · rw [List.getElem?_append_left hid] at h
    exact .inl ⟨hid, h⟩
  · have hbound := (List.getElem?_eq_some_iff.1 h).1
    have hlast : id = parents.length := by
      simp only [List.length_append, List.length_singleton] at hbound
      omega
    rw [hlast, List.getElem?_concat_length, Option.some.injEq] at h
    exact .inr ⟨hlast, h.symm⟩

theorem Linked.grow {parents : List (Option ScopeId)} {forest : Forest} {parent : Option ScopeId}
    (h : forest.Linked parents) (hparent : ∀ id ∈ parent, id < forest.scopes.size) :
    (forest.grow parent).2.Linked (parents ++ [parent]) := by
  have hsize := h.size
  -- the chains of the scopes that were there are as they were
  have hchain (above : Option ScopeId) (habove : ∀ id ∈ above, id < forest.scopes.size) :
      (above.map (forest.grow parent).2.chain).getD [] = (above.map forest.chain).getD [] := by
    cases above with
    | none => rfl
    | some id =>
      refine congrArg (id :: ·) ((ancestors_grow forest parent id).trans ?_)
      rw [if_neg (Nat.ne_of_lt (habove id rfl))]
      rfl
  constructor
  · simp [hsize, Forest.grow]
  · intro id above habove
    rw [ancestors_grow]
    rcases parent_cases habove with ⟨hid, hold⟩ | ⟨rfl, rfl⟩
    · rw [hsize] at hid
      rw [if_neg (Nat.ne_of_lt hid), hchain above]
      · exact h.ancestors id above hold
      · rintro up rfl
        exact Nat.lt_trans (h.older id up hold) hid
    · rw [if_pos hsize, hchain above hparent]
  · intro id above habove
    rcases parent_cases habove with ⟨_, hold⟩ | ⟨rfl, rfl⟩
    · exact h.older id above hold
    · rw [hsize]
      exact hparent above rfl

/-- `forest.Nearest parents name id owner row`: on the way up from scope `id`, scope `owner` is the
first that has the name, and `row` is the row of it. -/
inductive Nearest (parents : List (Option ScopeId)) (forest : Forest) (name : String) :
    ScopeId → ScopeId → Row → Prop where
  | here {id : ScopeId} {row : Row} :
      forest.row? id name = some row → Nearest parents forest name id id row
  | above {id parent owner : ScopeId} {row : Row} :
      forest.row? id name = none → parents[id]? = some (some parent) →
      Nearest parents forest name parent owner row → Nearest parents forest name id owner row

theorem Linked.resolve_iff {parents : List (Option ScopeId)} {forest : Forest}
    (h : forest.Linked parents) (name : String) (id : ScopeId) (hid : id < forest.scopes.size)
    (owner : ScopeId) (row : Row) :
    forest.resolve id name = .ok (owner, row) ↔ forest.Nearest parents name id owner row := by
  have hresolve (id : ScopeId) :
      forest.resolve id name = .ok (owner, row) ↔
        forest.nearest? name (forest.chain id) = some (owner, row) := by
    rw [resolve]
    cases forest.nearest? name (forest.chain id) <;> simp
  rw [hresolve]
  -- the parent of a scope is older than the scope
  induction id using Nat.strongRecOn with
  | ind id ih =>
    have hparent : id < parents.length := by
      rw [h.size]
      exact hid
    have hancestors := h.ancestors id parents[id] (List.getElem?_eq_getElem hparent)
    have hchain : forest.chain id = id :: forest.ancestors id := rfl
    rw [hchain, nearest?]
    cases hrow : forest.row? id name with
    | some found =>
      simp only [Option.some.injEq, Prod.mk.injEq]
      constructor
      · rintro ⟨rfl, rfl⟩
        exact .here hrow
      · intro hnearest
        cases hnearest with
        | here hfound => exact ⟨rfl, Option.some.inj (hrow.symm.trans hfound)⟩
        | above hnone => rw [hrow] at hnone; cases hnone
    | none =>
      simp only [hancestors]
      cases hup : parents[id] with
      | none =>
        simp only [Option.map_none, Option.getD_none, nearest?, reduceCtorEq, false_iff]
        intro hnearest
        cases hnearest with
        | here hfound => rw [hrow] at hfound; cases hfound
        | above _ hlink =>
          rw [List.getElem?_eq_getElem hparent, hup] at hlink
          cases hlink
      | some parent =>
        have hlink : parents[id]? = some (some parent) := by
          rw [List.getElem?_eq_getElem hparent, hup]
        have holder := h.older id parent hlink
        have hstep := ih parent holder (Nat.lt_trans holder hid)
        simp only [Option.map_some, Option.getD_some]
        constructor
        · intro hfound
          exact .above hrow hlink (hstep.1 hfound)
        · intro hnearest
          cases hnearest with
          | here hfound => rw [hrow] at hfound; cases hfound
          | above _ hlink' hrest =>
            rw [hlink, Option.some.injEq, Option.some.injEq] at hlink'
            subst hlink'
            exact hstep.2 hrest

theorem rows_write (forest : Forest) (owner id : ScopeId) (name : String) (value : Value) :
    (forest.write owner name value).rows id =
      if owner = id then
        (forest.rows id).map fun row => if row.name = name then { row with value := value } else row
      else forest.rows id := by
  rw [rows, write_scope?, rows]
  split
  · cases forest.scope? id <;> rfl
  · rfl

theorem rows_add {forest : Forest} {owner : ScopeId} {table : Scope}
    (htable : forest.scope? owner = some table) (id : ScopeId) (row : Row) :
    (forest.add owner row).rows id =
      if owner = id then forest.rows id ++ [row] else forest.rows id := by
  rw [rows, add_scope?, rows]
  split
  · next hsame =>
    rw [← hsame, htable]
    rfl
  · rfl

theorem rows_grow_leads (forest : Forest) (parent : Option ScopeId) (id : ScopeId) :
    forest.rows id <+: (forest.grow parent).2.rows id := by
  rw [rows, rows, grow_scope?]
  split
  · next hid =>
    rw [hid, scope?, Array.getElem?_size]
    exact List.nil_prefix
  · exact List.prefix_rfl

theorem row?_eq_find? (forest : Forest) (id : ScopeId) (name : String) :
    forest.row? id name = (forest.rows id).find? fun row => row.name = name := by
  rw [row?, rows]
  cases forest.scope? id <;> rfl

theorem row?_write (forest : Forest) (owner id : ScopeId) (name other : String) (value : Value) :
    (forest.write owner name value).row? id other =
      (forest.row? id other).map fun row =>
        if owner = id ∧ other = name then { row with value := value } else row := by
  rw [row?, write_scope?, row?]
  cases hscope : forest.scope? id with
  | none => split <;> rfl
  | some scope =>
    by_cases howner : owner = id
    · rw [if_pos howner, Option.map_some, Option.bind_some, Option.bind_some, Scope.row?_write]
      cases hrow : scope.row? other with
      | none => rfl
      | some row => simp [(Scope.row?_mem hrow).2, howner]
    · simp [howner]

theorem resolve_write (forest : Forest) (owner id : ScopeId) (name other : String) (value : Value) :
    (forest.write owner name value).resolve id other =
      (forest.resolve id other).map fun found =>
        (found.1, if owner = found.1 ∧ other = name then { found.2 with value := value }
          else found.2) := by
  have hnearest (ids : List ScopeId) :
      (forest.write owner name value).nearest? other ids =
        (forest.nearest? other ids).map fun found =>
          (found.1, if owner = found.1 ∧ other = name then { found.2 with value := value }
            else found.2) := by
    induction ids with
    | nil => rfl
    | cons id ids ih =>
      rw [nearest?, nearest?, row?_write]
      cases forest.row? id other with
      | none => exact ih
      | some row => rfl
  rw [resolve, chain_write, hnearest, resolve]
  cases forest.nearest? other (forest.chain id) <;> rfl

theorem target_iff (forest : Forest) (id owner : ScopeId) (name : String) (type : TypeName) :
    forest.target id name type = .ok owner ↔
      ∃ row, forest.resolve id name = .ok (owner, row) ∧ row.isFunction = false ∧
        row.type = type := by
  rw [target]
  cases hresolve : forest.resolve id name with
  | error cause =>
    constructor
    · intro h
      cases h
    · rintro ⟨row, h, _⟩
      cases h
  | ok found =>
    by_cases hfunction : found.2.isFunction = true
    · simp [bind, Except.bind, Prod.ext_iff, hfunction]
    · by_cases htype : found.2.type = type
      · simp [bind, Except.bind, pure, Except.pure, Prod.ext_iff, hfunction, htype]
      · simp [bind, Except.bind, Prod.ext_iff, hfunction, htype]

end Forest

theorem Row.map_name_eq_set {rows : List Row} {k : Nat} {row : Row} (value : Value)
    (hnames : (rows.map Row.name).Nodup) (hrow : rows[k]? = some row) :
    (rows.map fun other => if other.name = row.name then { other with value := value } else other) =
      rows.set k { row with value := value } := by
  obtain ⟨hk, rfl⟩ := List.getElem?_eq_some_iff.1 hrow
  refine List.ext_getElem (by simp) fun j hj _ => ?_
  simp only [List.length_map] at hj
  by_cases hjk : j = k
  · subst hjk
    simp
  · have hne : rows[j].name ≠ rows[k].name := by
      intro hname
      have hsame : (rows.map Row.name)[j]? = (rows.map Row.name)[k]? := by
        simp [List.getElem?_eq_getElem hj, List.getElem?_eq_getElem hk, hname]
      exact hjk ((List.getElem?_inj (by simpa using hj) hnames).1 hsame)
    simp [hne, Ne.symm hjk]

end LevelScript

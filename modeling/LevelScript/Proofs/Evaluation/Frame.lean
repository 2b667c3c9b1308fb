import LevelScript.Proofs.Evaluation.Typing

set_option autoImplicit false

/-!
# Frames of scopes

What an evaluation in a scope may do to a forest. A scope that is not on its chain stays as it is,
an ancestor keeps its rows and only values of variables change, and the scope itself may get rows
after those that it has. A frame is taken against a forest that stays fixed, so that the scopes that
are opened later may change freely.
-/

namespace LevelScript

/-- The same row, if it is a variable possibly with another value. -/
structure Row.Kept (row later : Row) : Prop where
  name : later.name = row.name
  type : later.type = row.type
  shift : later.shift = row.shift
  isFunction : later.isFunction = row.isFunction
  value : row.isFunction = true → later.value = row.value

namespace Row.Kept

theorem refl (row : Row) : row.Kept row :=
  ⟨rfl, rfl, rfl, rfl, fun _ => rfl⟩

theorem trans {first second third : Row} (h : first.Kept second) (h' : second.Kept third) :
    first.Kept third where
  name := h'.name.trans h.name
  type := h'.type.trans h.type
  shift := h'.shift.trans h.shift
  isFunction := h'.isFunction.trans h.isFunction
  value hfunction := (h'.value (h.isFunction.trans hfunction)).trans (h.value hfunction)

end Row.Kept

abbrev RowsKept (rows later : List Row) : Prop :=
  List.Forall₂ Row.Kept rows later

theorem RowsKept.refl (rows : List Row) : RowsKept rows rows :=
  List.forall₂_same.2 fun row _ => .refl row

theorem RowsKept.trans {first second third : List Row} (h : RowsKept first second)
    (h' : RowsKept second third) : RowsKept first third := by
  induction h generalizing third with
  | nil => exact h'
  | cons hrow _ ih =>
    cases h' with
    | cons hrow' hrows' => exact .cons (hrow.trans hrow') (ih hrows')

theorem RowsKept.find? {rows later : List Row} (h : RowsKept rows later) (name : String) :
    Option.Rel Row.Kept (rows.find? fun row => row.name = name)
      (later.find? fun row => row.name = name) := by
  induction h with
  | nil => exact .none
  | cons hrow _ ih =>
    simp only [List.find?_cons, hrow.name]
    split
    · exact .some hrow
    · exact ih

namespace Scope

structure Kept (scope later : Scope) : Prop where
  ancestors : later.ancestors = scope.ancestors
  rows : RowsKept scope.rows later.rows
  nextShift : later.nextShift = scope.nextShift

theorem Kept.refl (scope : Scope) : scope.Kept scope :=
  ⟨rfl, .refl _, rfl⟩

theorem Kept.trans {first second third : Scope} (h : first.Kept second) (h' : second.Kept third) :
    first.Kept third :=
  ⟨h'.ancestors.trans h.ancestors, h.rows.trans h'.rows, h'.nextShift.trans h.nextShift⟩

/-- The scope with its rows kept and, if it `grows`, other rows after them. -/
structure Grown (grows : Bool) (scope later : Scope) : Prop where
  ancestors : later.ancestors = scope.ancestors
  rows : ∃ kept added, later.rows = kept ++ added ∧ RowsKept scope.rows kept ∧
    later.nextShift = scope.nextShift + 4 * added.length ∧ (grows = false → added = [])

theorem Kept.grown {scope later : Scope} (h : scope.Kept later) (grows : Bool) :
    scope.Grown grows later :=
  ⟨h.ancestors, later.rows, [], by simp, h.rows, h.nextShift, fun _ => rfl⟩

theorem Grown.trans {grows : Bool} {first second third : Scope} (h : first.Grown grows second)
    (h' : second.Grown grows third) : first.Grown grows third := by
  obtain ⟨kept, added, hrows, hkept, hshift, hnone⟩ := h.rows
  obtain ⟨kept', added', hrows', hkept', hshift', hnone'⟩ := h'.rows
  -- the rows that the first change added are among those that the second one kept
  rw [hrows] at hkept'
  have hold : RowsKept kept (kept'.take kept.length) :=
    (List.forall₂_take_append _ _ _ hkept'.flip).flip
  have hnew : RowsKept added (kept'.drop kept.length) :=
    (List.forall₂_drop_append _ _ _ hkept'.flip).flip
  refine ⟨h'.ancestors.trans h.ancestors, kept'.take kept.length, kept'.drop kept.length ++ added',
    ?_, hkept.trans hold, ?_, ?_⟩
  · rw [hrows', ← List.append_assoc, List.take_append_drop]
  · have hlength : (kept'.drop kept.length).length = added.length := hnew.length_eq.symm
    rw [hshift', hshift, List.length_append, hlength]
    omega
  · intro hgrows
    rw [hnone hgrows] at hnew
    cases hnew' : kept'.drop kept.length with
    | nil => exact hnone' hgrows
    | cons row rows =>
      rw [hnew'] at hnew
      cases hnew

theorem Grown.kept {scope later : Scope} (h : scope.Grown false later) : scope.Kept later := by
  obtain ⟨kept, added, hrows, hkept, hshift, hnone⟩ := h.rows
  obtain rfl := hnone rfl
  rw [List.append_nil] at hrows
  exact ⟨h.ancestors, hrows ▸ hkept, hshift⟩

theorem kept_write {scope : Scope} {name : String} {row : Row} (value : Value)
    (hnames : (scope.rows.map Row.name).Nodup) (hrow : scope.row? name = some row)
    (hvariable : row.isFunction = false) : scope.Kept (scope.write name value) := by
  obtain ⟨hmem, hname⟩ := row?_mem hrow
  refine ⟨rfl, List.forall₂_map_right_iff.2 (List.forall₂_same.2 fun other hother => ?_), rfl⟩
  split
  · next hsame =>
    obtain rfl := List.inj_on_of_nodup_map hnames hother hmem (hsame.trans hname.symm)
    refine ⟨rfl, rfl, rfl, rfl, fun hfunction => ?_⟩
    rw [hvariable] at hfunction
    cases hfunction
  · exact .refl other

theorem grown_add (scope : Scope) (row : Row) : scope.Grown true (scope.add row) :=
  ⟨rfl, scope.rows, [row], rfl, .refl _, rfl, nofun⟩

end Scope

namespace Forest

def ancestors (forest : Forest) (id : ScopeId) : List ScopeId :=
  ((forest.scope? id).map Scope.ancestors).getD []

/-- Names are not repeated in a scope, and a scope is older than those inside it. -/
structure WellFormed (forest : Forest) : Prop where
  names : ∀ id scope, forest.scope? id = some scope → (scope.rows.map Row.name).Nodup
  ancestors : ∀ id scope, forest.scope? id = some scope →
    ∀ ancestor ∈ scope.ancestors, ancestor < id

theorem ancestors_of_scope? {forest : Forest} {id : ScopeId} {scope : Scope}
    (h : forest.scope? id = some scope) : forest.ancestors id = scope.ancestors := by
  rw [ancestors, h]
  rfl

theorem mem_chain {forest : Forest} {id other : ScopeId} :
    other ∈ forest.chain id ↔ other = id ∨ other ∈ forest.ancestors id :=
  List.mem_cons

theorem lt_size {forest : Forest} {id : ScopeId} {scope : Scope}
    (h : forest.scope? id = some scope) : id < forest.scopes.size :=
  (Array.getElem?_eq_some_iff.1 h).1

namespace WellFormed

theorem empty : Forest.empty.WellFormed :=
  ⟨nofun, nofun⟩

theorem write {forest : Forest} (h : forest.WellFormed) (owner : ScopeId) (name : String)
    (value : Value) : (forest.write owner name value).WellFormed := by
  constructor <;> intro id scope hscope <;> rw [write_scope?] at hscope <;> split at hscope
  · obtain ⟨before, hbefore, rfl⟩ := Option.map_eq_some_iff.1 hscope
    exact Scope.names_write before name value ▸ h.names id before hbefore
  · exact h.names id scope hscope
  · obtain ⟨before, hbefore, rfl⟩ := Option.map_eq_some_iff.1 hscope
    exact h.ancestors id before hbefore
  · exact h.ancestors id scope hscope

theorem add {forest : Forest} {owner : ScopeId} {table : Scope} {row : Row} (h : forest.WellFormed)
    (htable : forest.scope? owner = some table) (hnone : table.row? row.name = none) :
    (forest.add owner row).WellFormed := by
  constructor <;> intro id scope hscope <;> rw [add_scope?] at hscope <;> split at hscope
  · next hsame =>
    obtain ⟨before, hbefore, rfl⟩ := Option.map_eq_some_iff.1 hscope
    obtain rfl := Option.some.inj (htable.symm.trans (hsame ▸ hbefore))
    exact Scope.nodup_add (h.names _ _ htable) hnone
  · exact h.names id scope hscope
  · obtain ⟨before, hbefore, rfl⟩ := Option.map_eq_some_iff.1 hscope
    exact h.ancestors id before hbefore
  · exact h.ancestors id scope hscope

theorem grow {forest : Forest} {parent : ScopeId} {table : Scope} (h : forest.WellFormed)
    (htable : forest.scope? parent = some table) : (forest.grow (some parent)).2.WellFormed := by
  constructor <;> intro id scope hscope <;> rw [grow_scope?] at hscope <;> split at hscope
  · cases hscope
    exact List.nodup_nil
  · exact h.names id scope hscope
  · next hnew =>
    cases hscope
    intro ancestor hancestor
    have hparent := lt_size htable
    rcases mem_chain.1 hancestor with rfl | habove
    · exact hnew ▸ hparent
    · rw [ancestors_of_scope? htable] at habove
      exact hnew ▸ Nat.lt_trans (h.ancestors parent table htable ancestor habove) hparent
  · exact h.ancestors id scope hscope

end WellFormed

/-- What an evaluation in a scope of `forest` may have changed in `later`; only an evaluation that
`grows` may have added rows. -/
structure Frame (grows : Bool) (scope : ScopeId) (forest later : Forest) : Prop where
  elsewhere : ∀ id table, id ∉ forest.chain scope → forest.scope? id = some table →
    later.scope? id = some table
  above : ∀ id table, id ∈ forest.ancestors scope → forest.scope? id = some table →
    ∃ kept, later.scope? id = some kept ∧ table.Kept kept
  here : ∀ table, forest.scope? scope = some table →
    ∃ grown, later.scope? scope = some grown ∧ table.Grown grows grown

namespace Frame

variable {grows : Bool} {scope : ScopeId} {forest middle later : Forest}

theorem refl (grows : Bool) (scope : ScopeId) (forest : Forest) :
    forest.Frame grows scope forest where
  elsewhere _ _ _ htable := htable
  above _ table _ htable := ⟨table, htable, .refl table⟩
  here table htable := ⟨table, htable, (Scope.Kept.refl table).grown grows⟩

theorem scope? (h : forest.Frame grows scope later) {id : ScopeId} {table : Scope}
    (htable : forest.scope? id = some table) :
    ∃ found, later.scope? id = some found ∧ found.ancestors = table.ancestors := by
  by_cases hchain : id ∈ forest.chain scope
  · rcases mem_chain.1 hchain with rfl | habove
    · obtain ⟨grown, hgrown, hrows⟩ := h.here table htable
      exact ⟨grown, hgrown, hrows.ancestors⟩
    · obtain ⟨kept, hkept, hrows⟩ := h.above id table habove htable
      exact ⟨kept, hkept, hrows.ancestors⟩
  · exact ⟨table, h.elsewhere id table hchain htable, rfl⟩

theorem ancestors_eq (h : forest.Frame grows scope later) {id : ScopeId} {table : Scope}
    (htable : forest.scope? id = some table) : later.ancestors id = forest.ancestors id := by
  obtain ⟨found, hfound, hancestors⟩ := h.scope? htable
  rw [ancestors_of_scope? hfound, ancestors_of_scope? htable, hancestors]

theorem chain_eq (h : forest.Frame grows scope later) {id : ScopeId} {table : Scope}
    (htable : forest.scope? id = some table) : later.chain id = forest.chain id :=
  congrArg (id :: ·) (h.ancestors_eq htable)

theorem trans {table : Scope} (hscope : forest.scope? scope = some table)
    (h : forest.Frame grows scope middle) (h' : middle.Frame grows scope later) :
    forest.Frame grows scope later where
  elsewhere id found hid hfound := by
    rw [← h.chain_eq hscope] at hid
    exact h'.elsewhere id found hid (h.elsewhere id found (h.chain_eq hscope ▸ hid) hfound)
  above id found hid hfound := by
    obtain ⟨kept, hkept, hrows⟩ := h.above id found hid hfound
    obtain ⟨last, hlast, hrows'⟩ := h'.above id kept (h.ancestors_eq hscope ▸ hid) hkept
    exact ⟨last, hlast, hrows.trans hrows'⟩
  here found hfound := by
    obtain ⟨grown, hgrown, hrows⟩ := h.here found hfound
    obtain ⟨last, hlast, hrows'⟩ := h'.here grown hgrown
    exact ⟨last, hlast, hrows.trans hrows'⟩

/-- What is done in a scope inside this one, opened after `forest`, is done within the frame, and
adds no row to this one. -/
theorem inside {inner : ScopeId} (h : forest.Frame grows scope middle)
    (hnew : forest.scope? inner = none) (hinner : middle.ancestors inner = forest.chain scope)
    (h' : middle.Frame true inner later) : forest.Frame grows scope later where
  elsewhere id table hid htable := by
    refine h'.elsewhere id table ?_ (h.elsewhere id table hid htable)
    rw [mem_chain, hinner, not_or]
    refine ⟨?_, hid⟩
    rintro rfl
    cases hnew.symm.trans htable
  above id table hid htable := by
    obtain ⟨kept, hkept, hrows⟩ := h.above id table hid htable
    obtain ⟨last, hlast, hrows'⟩ := h'.above id kept (hinner ▸ mem_chain.2 (.inr hid)) hkept
    exact ⟨last, hlast, hrows.trans hrows'⟩
  here table htable := by
    obtain ⟨grown, hgrown, hrows⟩ := h.here table htable
    obtain ⟨last, hlast, hrows'⟩ := h'.above scope grown (hinner ▸ mem_chain.2 (.inl rfl)) hgrown
    exact ⟨last, hlast, hrows.trans (hrows'.grown grows)⟩

/-- Where a scope is changed that `forest` does not have, nothing is seen from it. -/
theorem of_new {inner : ScopeId} (h : forest.Frame grows scope middle)
    (hnew : forest.scope? inner = none)
    (hlater : ∀ id, id ≠ inner → later.scope? id = middle.scope? id) :
    forest.Frame grows scope later := by
  have hold {id : ScopeId} {table : Scope} (htable : forest.scope? id = some table) :
      later.scope? id = middle.scope? id := by
    refine hlater id ?_
    rintro rfl
    cases hnew.symm.trans htable
  constructor
  · intro id table hid htable
    rw [hold htable]
    exact h.elsewhere id table hid htable
  · intro id table hid htable
    rw [hold htable]
    exact h.above id table hid htable
  · intro table htable
    rw [hold htable]
    exact h.here table htable

end Frame

theorem nearest?_mem {forest : Forest} {name : String} {ids : List ScopeId} {owner : ScopeId}
    {row : Row} (h : forest.nearest? name ids = some (owner, row)) : owner ∈ ids := by
  induction ids with
  | nil => cases h
  | cons id ids ih =>
    rw [nearest?] at h
    split at h
    · cases h
      exact List.mem_cons_self
    · exact List.mem_cons_of_mem _ (ih h)

section Lookup

variable {forest later : Forest} {scope : ScopeId} {table : Scope}

theorem Frame.row? (h : forest.Frame false scope later) (hformed : forest.WellFormed)
    (htable : forest.scope? scope = some table) {id : ScopeId} (hid : id ∈ forest.chain scope)
    (name : String) : Option.Rel Row.Kept (forest.row? id name) (later.row? id name) := by
  have hfound : ∃ found kept, forest.scope? id = some found ∧ later.scope? id = some kept ∧
      found.Kept kept := by
    rcases mem_chain.1 hid with rfl | habove
    · obtain ⟨grown, hgrown, hrows⟩ := h.here table htable
      exact ⟨table, grown, htable, hgrown, hrows.kept⟩
    · have hlt : id < forest.scopes.size := by
        have hancestor := habove
        rw [ancestors_of_scope? htable] at hancestor
        exact Nat.lt_trans (hformed.ancestors scope table htable id hancestor) (lt_size htable)
      have hsome : forest.scope? id = some forest.scopes[id] := Array.getElem?_eq_getElem hlt
      obtain ⟨kept, hkept, hrows⟩ := h.above id _ habove hsome
      exact ⟨_, kept, hsome, hkept, hrows⟩
  obtain ⟨found, kept, hfound, hlater, hrows⟩ := hfound
  rw [Forest.row?, Forest.row?, hfound, hlater]
  exact hrows.rows.find? name

theorem nearest?_kept {name : String} {ids : List ScopeId}
    (h : ∀ id ∈ ids, Option.Rel Row.Kept (forest.row? id name) (later.row? id name)) :
    Option.Rel (fun found kept => kept.1 = found.1 ∧ found.2.Kept kept.2)
      (forest.nearest? name ids) (later.nearest? name ids) := by
  induction ids with
  | nil => exact .none
  | cons id ids ih =>
    obtain ⟨hid, hids⟩ := List.forall_mem_cons.1 h
    rw [nearest?, nearest?]
    cases hrow : forest.row? id name <;> cases hrow' : later.row? id name <;>
      rw [hrow, hrow'] at hid
    · exact ih hids
    · cases hid
    · cases hid
    · cases hid with
      | some hkept => exact .some ⟨rfl, hkept⟩

theorem Frame.nearest? (h : forest.Frame false scope later) (hformed : forest.WellFormed)
    (htable : forest.scope? scope = some table) (name : String) :
    Option.Rel (fun found kept => kept.1 = found.1 ∧ found.2.Kept kept.2)
      (forest.nearest? name (forest.chain scope)) (later.nearest? name (later.chain scope)) := by
  rw [h.chain_eq htable]
  exact nearest?_kept fun id hid => h.row? hformed htable hid name

theorem Frame.resolve {name : String} {owner : ScopeId} {row : Row}
    (h : forest.Frame false scope later) (hformed : forest.WellFormed)
    (htable : forest.scope? scope = some table)
    (hresolve : forest.resolve scope name = .ok (owner, row)) :
    ∃ kept, later.resolve scope name = .ok (owner, kept) ∧ row.Kept kept := by
  have hnearest := h.nearest? hformed htable name
  rw [Forest.resolve] at hresolve ⊢
  cases hfound : forest.nearest? name (forest.chain scope) with
  | none =>
    rw [hfound] at hresolve
    cases hresolve
  | some found =>
    rw [hfound] at hresolve hnearest
    cases hresolve
    cases hlater : later.nearest? name (later.chain scope) with
    | none =>
      rw [hlater] at hnearest
      cases hnearest
    | some kept =>
      rw [hlater] at hnearest
      cases hnearest with
      | some hkept => exact ⟨kept.2, congrArg Except.ok (Prod.ext hkept.1 rfl), hkept.2⟩

end Lookup

theorem target_mem_chain {forest : Forest} {id owner : ScopeId} {name : String} {type : TypeName}
    (h : forest.target id name type = .ok owner) : owner ∈ forest.chain id := by
  rw [target, resolve] at h
  cases hfound : forest.nearest? name (forest.chain id) with
  | none => rw [hfound] at h; cases h
  | some found =>
    simp only [hfound, bind, Except.bind] at h
    split at h
    · cases h
    · split at h
      · cases h
      · cases h
        exact nearest?_mem hfound

theorem frame_write {forest : Forest} {scope owner : ScopeId} {name : String} {type : TypeName}
    (grows : Bool) (value : Value) (h : forest.WellFormed)
    (htarget : forest.target scope name type = .ok owner) :
    forest.Frame grows scope (forest.write owner name value) := by
  obtain ⟨row, hrow, hvariable, _⟩ := target_row? htarget
  obtain ⟨found, hfound, hlookup⟩ := row?_eq_some hrow
  have hkept := Scope.kept_write value (h.names owner found hfound) hlookup hvariable
  have hchange (id : ScopeId) (table : Scope) (htable : forest.scope? id = some table) :
      ∃ kept, (forest.write owner name value).scope? id = some kept ∧ table.Kept kept := by
    rw [write_scope?]
    split
    · next hsame =>
      obtain rfl := Option.some.inj (hfound.symm.trans (hsame ▸ htable))
      exact ⟨_, by rw [htable, Option.map_some], hkept⟩
    · exact ⟨table, htable, .refl table⟩
  constructor
  · intro id table hid htable
    rw [write_scope?, if_neg, htable]
    rintro rfl
    exact hid (target_mem_chain htarget)
  · exact fun id table _ htable => hchange id table htable
  · intro table htable
    obtain ⟨kept, hwritten, hrows⟩ := hchange scope table htable
    exact ⟨kept, hwritten, hrows.grown grows⟩

theorem frame_add {forest : Forest} (h : forest.WellFormed) (scope : ScopeId) (row : Row) :
    forest.Frame true scope (forest.add scope row) where
  elsewhere id table hid htable := by
    rw [add_scope?, if_neg, htable]
    rintro rfl
    exact hid (mem_chain.2 (.inl rfl))
  above id table hid htable := by
    rw [add_scope?, if_neg, htable]
    · exact ⟨table, rfl, .refl table⟩
    · rintro rfl
      rw [ancestors_of_scope? htable] at hid
      exact Nat.lt_irrefl _ (h.ancestors _ table htable _ hid)
  here table htable := by
    rw [add_scope?, if_pos rfl, htable]
    exact ⟨_, rfl, table.grown_add row⟩

end Forest

end LevelScript

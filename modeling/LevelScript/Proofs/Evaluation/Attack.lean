import LevelScript.Proofs.Evaluation.Atomicity
import LevelScript.Proofs.Evaluation.Footprint
import LevelScript.Proofs.Evaluation.Operands

set_option autoImplicit false

namespace LevelScript

/-- The operand is the row that a scope has for a name. -/
def Operand.Refers (operand : Operand) (owner : ScopeId) (name : String) : Prop :=
  ∃ row, operand = .variable owner row ∧ row.name = name

namespace Operand

variable {forest : Forest} {operand : Operand} {owner : ScopeId} {name : String}

theorem Refers.value (h : operand.Refers owner name) {row : Row}
    (hrow : forest.row? owner name = some row) : operand.value forest = row.value := by
  obtain ⟨found, rfl, rfl⟩ := h
  rw [Operand.value, Forest.currentValue, hrow]
  rfl

/-- A write is seen through the row written to and through nothing else. -/
theorem value_write_of_not_refers (h : ¬ operand.Refers owner name) (new : Value) :
    operand.value (forest.write owner name new) = operand.value forest := by
  rcases operand with ⟨type, value⟩ | ⟨found, row⟩
  · rfl
  · rw [Operand.value, Forest.currentValue, Forest.row?_write_of_ne, Operand.value,
      Forest.currentValue]
    rintro ⟨rfl, hname⟩
    exact h ⟨row, rfl, hname⟩

end Operand

namespace Value

theorem eq_decimal_of_display {titles : Titles} {n : Int} {text : String}
    (h : (number n).display titles = .ok text) : text = Numeral.decimal n := by
  rw [display_number, Numeral.write] at h
  split at h
  · cases h
    rfl
  · cases h

theorem display_of_integer? {value : Value} {n : Int} (h : value.integer? = some n)
    (titles titles' : Titles) : value.display titles' = value.display titles := by
  cases value with
  | number | boolean => rfl
  | text | array | void | function => cases h

end Value

namespace Evaluation

variable {scope : ScopeId} {name : String} {world last : World}

def victory (points : Int) : List Event :=
  if points ≤ 0 then [.line "Inimigo derrotado!"] else []

theorem mem_victory_iff (points : Int) :
    .line "Inimigo derrotado!" ∈ victory points ↔ points ≤ 0 := by
  unfold victory
  split <;> simp_all

theorem run_strike_ok {points : Int} {lead : Evaluation String} (hlead : Still lead)
    (hrun : (strike scope name (.number points) lead).run world = (.ok (), last)) :
    ∃ owner told, world.forest.target scope name .number = .ok owner ∧
      last.forest = world.forest.write owner name (.number points) ∧
      (lead.run { world with forest := last.forest }).1 = .ok told ∧
      last.events.toList = world.events.toList ++
        .line (told ++ "! " ++ name ++ " agora = " ++ Numeral.decimal points) ::
          victory points := by
  obtain ⟨_, written, hassign, hrest⟩ := exists_of_run_bind_ok hrun
  rw [run_assign] at hassign
  split at hassign
  · next later hlater =>
    cases hassign
    obtain ⟨owner, howner, rfl⟩ := Forest.assign_eq hlater
    obtain ⟨told, between, htold, hrest⟩ := exists_of_run_bind_ok hrest
    have hstill := hlead.run { world with
      forest := world.forest.write owner name (.number points) }
    rw [htold] at hstill
    obtain rfl : between = _ := hstill
    obtain ⟨shown, between, hshown, hrest⟩ := exists_of_run_bind_ok hrest
    rw [run_display, run_ofExcept] at hshown
    split at hshown
    · next text htext =>
      cases hshown
      obtain rfl := Value.eq_decimal_of_display htext
      obtain ⟨_, said, hsaid, hrest⟩ := exists_of_run_bind_ok hrest
      cases hsaid
      obtain ⟨beaten, _, hbeaten, hrest⟩ := exists_of_run_bind_ok hrest
      cases hbeaten
      have hbeaten : Order.ofInts .atMost points 0 = true ↔ points ≤ 0 := by
        simp [Order.ofInts, Order.holds]
      split at hrest
      · next hpoints =>
        cases hrest
        refine ⟨owner, told, howner, rfl, congrArg Prod.fst htold, ?_⟩
        rw [victory, if_pos (hbeaten.1 hpoints)]
        simp
      · next hpoints =>
        cases hrest
        refine ⟨owner, told, howner, rfl, congrArg Prod.fst htold, ?_⟩
        rw [victory, if_neg fun h => hpoints (hbeaten.2 h)]
        simp
    · cases hshown
  · cases hassign

/-- What an attack on `name` by `operand` has made of the world in which the damage was evaluated:
the target had `m` points then and has lost `n`. -/
structure Struck (scope : ScopeId) (name : String) (operand : Operand) (between last : World)
    (owner : ScopeId) (row : Row) (m n : Int) (told : String) : Prop where
  target : between.forest.resolve scope name = .ok (owner, row)
  points : row.value.integer? = some m
  loss : (operand.value between.forest).integer? = some n
  forest : last.forest = between.forest.write owner name (.number (m - n))
  shown : (operand.value last.forest).display between.titles = .ok told
  events : last.events.toList = between.events.toList ++
    .line ("Atacado com " ++ told ++ "! " ++ name ++ " agora = " ++ Numeral.decimal (m - n)) ::
      victory (m - n)

/-- An expression adds no row to the scopes in which a name is looked up, so the name means the same
row after it. -/
theorem exists_resolve_after {rounds depth : Nat} {node : Node} {table : Scope}
    {ending : Except Stop (Option Operand)} {owner : ScopeId} {before : Row}
    (hnode : Sourced true .expression node) (hforest : world.forest.WellFormed)
    (hscope : world.forest.scope? scope = some table)
    (hrun : (evaluate rounds depth node scope).run world = (ending, last))
    (hbefore : world.forest.resolve scope name = .ok (owner, before)) :
    ∃ row, last.forest.resolve scope name = .ok (owner, row) := by
  have hframes := evaluate_framesOn rounds depth false node scope fun _ => hnode
  have hframed := (hframes.framed hscope).run ⟨hforest, .refl _ _ _⟩
  rw [hrun] at hframed
  obtain ⟨row, hrow, _⟩ := hframed.frame.resolve hforest hscope hbefore
  exact ⟨row, hrow⟩

theorem currentValue_of_resolve {forest later : Forest} {owner : ScopeId} {before row : Row}
    (hbefore : forest.resolve scope name = .ok (owner, before))
    (hrow : later.resolve scope name = .ok (owner, row)) :
    later.currentValue owner before = row.value := by
  rw [Forest.currentValue, Forest.row?_name (Forest.resolve_row? hbefore),
    Forest.resolve_row? hrow]
  rfl

theorem run_name_ok {rounds depth label : Nat} {result : Option Operand}
    (hrun : (evaluate rounds depth (.identifier label name) scope).run world =
      (.ok result, last)) :
    ∃ owner row, world.forest.resolve scope name = .ok (owner, row) ∧
      result = some (.variable owner row) ∧ last = world := by
  cases depth with
  | zero => cases hrun
  | succ depth =>
    obtain ⟨found, between, hfound, hrest⟩ := exists_of_run_bind_ok hrun
    rw [run_resolve] at hfound
    split at hfound
    · next hresolve =>
      cases hfound
      cases hrest
      exact ⟨_, _, hresolve, rfl, rfl⟩
    · cases hfound

theorem run_lead_ok {operand : Operand} {lead : String}
    (hrun : ((valueOf (some operand) >>= fun value => display value >>= fun shown =>
      pure ("Atacado com " ++ shown)).run world).1 = .ok lead) :
    ∃ told, (operand.value world.forest).display world.titles = .ok told ∧
      lead = "Atacado com " ++ told := by
  change ((display (operand.value world.forest) >>= fun shown =>
    pure ("Atacado com " ++ shown)).run world).1 = .ok lead at hrun
  rw [run_bind, run_display] at hrun
  cases hdisplay : (operand.value world.forest).display world.titles with
  | error cause =>
    rw [hdisplay] at hrun
    cases hrun
  | ok told =>
    rw [hdisplay] at hrun
    cases hrun
    exact ⟨told, rfl, rfl⟩

theorem run_unless_ok {α β : Type} {p : Prop} [Decidable p] {cause : Fault} {f : β → Evaluation α}
    {x : Evaluation α} {a : α}
    (h : (if p then raise cause >>= f else x).run world = (.ok a, last)) :
    ¬ p ∧ x.run world = (.ok a, last) := by
  split at h
  · cases h
  · next hp => exact ⟨hp, h⟩

theorem attack_struck {rounds depth : Nat} {target damage : Node} {table : Scope}
    (hdamage : Sourced true .expression damage) (hforest : world.forest.WellFormed)
    (hscope : world.forest.scope? scope = some table)
    (hrun : (attackAction (evaluate rounds depth) scope [target, damage]).run world =
      (.ok (), last)) :
    ∃ label name owner before operand between row m n told, target = .identifier label name ∧
      world.forest.resolve scope name = .ok (owner, before) ∧
      (evaluate rounds depth damage scope).run world = (.ok (some operand), between) ∧
      Struck scope name operand between last owner row m n told := by
  cases target with
  | identifier label name =>
    obtain ⟨found, _, hfound, hrest⟩ := exists_of_run_bind_ok hrun
    obtain ⟨owner, before, hbefore, rfl, rfl⟩ := run_name_ok hfound
    obtain ⟨result, between, hresult, hrest⟩ := exists_of_run_bind_ok hrest
    obtain ⟨_, _, htype, hrest⟩ := exists_of_run_bind_ok hrest
    cases htype
    obtain ⟨_, hrest⟩ := run_unless_ok hrest
    obtain ⟨_, _, htype, hrest⟩ := exists_of_run_bind_ok hrest
    cases result with
    | none => cases htype
    | some operand =>
      cases htype
      obtain ⟨_, hrest⟩ := run_unless_ok hrest
      obtain ⟨_, _, hread, hrest⟩ := exists_of_run_bind_ok hrest
      cases hread
      obtain ⟨_, _, hread, hrest⟩ := exists_of_run_bind_ok hrest
      cases hread
      obtain ⟨points, _, hpoints, hrest⟩ := exists_of_run_bind_ok hrest
      rw [run_ofExcept] at hpoints
      split at hpoints
      · next difference hdifference =>
        cases hpoints
        obtain ⟨m, n, hm, hn, rfl⟩ := Value.integers_of_subtract hdifference
        have hlead : Still (valueOf (some operand) >>= fun value => display value >>= fun shown =>
            pure ("Atacado com " ++ shown)) :=
          ((looks_valueOf _).bind fun _ => (looks_display _).bind fun _ => looks_pure _).still
        obtain ⟨owner', lead, howner, hlast, htold, hevents⟩ := run_strike_ok hlead hrest
        obtain ⟨told, hshown, rfl⟩ := run_lead_ok htold
        -- the row written to is the one found first, and what was read of it is what it holds now
        obtain ⟨row, hrow⟩ := exists_resolve_after hdamage hforest hscope hresult hbefore
        obtain ⟨row', hrow', _⟩ := (between.forest.target_iff ..).1 howner
        rw [hrow] at hrow'
        cases hrow'
        replace hm : (between.forest.currentValue owner before).integer? = some m := hm
        rw [currentValue_of_resolve hbefore hrow] at hm
        exact ⟨label, name, owner, before, operand, between, row, m, n, told, rfl, hbefore, hresult,
          hrow, hm, hn, hlast, hshown, hevents⟩
      · cases hpoints
  | _ => cases hrun

namespace Struck

variable {operand : Operand} {between : World} {owner : ScopeId} {row : Row} {m n : Int}
  {told : String}

theorem resolve (h : Struck scope name operand between last owner row m n told) :
    last.forest.resolve scope name = .ok (owner, { row with value := .number (m - n) }) := by
  rw [h.forest, Forest.resolve_write, h.target, Except.map, if_pos ⟨rfl, rfl⟩]

theorem elsewhere (h : Struck scope name operand between last owner row m n told) (id : ScopeId)
    (other : String) (hother : ¬ (id = owner ∧ other = name)) :
    last.forest.row? id other = between.forest.row? id other := by
  rw [h.forest, Forest.row?_write_of_ne _ hother]

theorem told_of_not_refers (h : Struck scope name operand between last owner row m n told)
    (hrefers : ¬ operand.Refers owner name) (titles : Titles) :
    (operand.value between.forest).display titles = .ok told := by
  have hshown := h.shown
  rw [h.forest, Operand.value_write_of_not_refers hrefers] at hshown
  exact (Value.display_of_integer? h.loss between.titles titles).trans hshown

theorem told_of_refers (h : Struck scope name operand between last owner row m n told)
    (hrefers : operand.Refers owner name) : n = m ∧ told = "0" := by
  have hloss := h.loss
  rw [hrefers.value (Forest.resolve_row? h.target), h.points, Option.some.injEq] at hloss
  subst hloss
  have hshown := h.shown
  rw [hrefers.value (Forest.resolve_row? h.resolve), Int.sub_self] at hshown
  exact ⟨rfl, Value.eq_decimal_of_display hshown⟩

end Struck

theorem exists_run_of_isOk {α : Type} {x : Evaluation α} (h : (x.run world).1.isOk = true) :
    ∃ a last, x.run world = (.ok a, last) := by
  cases hrun : x.run world with
  | mk ending last =>
    rw [hrun] at h
    cases ending with
    | error reason => cases h
    | ok a => exact ⟨a, last, rfl⟩

theorem parsed_attack_struck {built rounds depth id : Nat} {source : String}
    {state : ParseState Lexer} {program target damage : Node} {table : Scope}
    {result : Option Operand}
    (h : Construct.program.parse built source = .ok (program, state))
    (hattack : (Node.action id .attack [target, damage]).Within program)
    (hforest : world.forest.WellFormed) (hscope : world.forest.scope? scope = some table)
    (hrun : (evaluate rounds (depth + 1) (.action id .attack [target, damage]) scope).run world =
      (.ok result, last)) :
    Sourced true .expression damage ∧
    ∃ label name owner before operand between row m n told, target = .identifier label name ∧
      world.forest.resolve scope name = .ok (owner, before) ∧
      (evaluate rounds depth damage scope).run world = (.ok (some operand), between) ∧
      Struck scope name operand between last owner row m n told := by
  obtain ⟨_, htree⟩ := sourced_of_parse (by decide) h
  obtain ⟨_, hcommand⟩ := htree.within hattack
  have hdamage := hcommand.arguments damage (List.mem_cons_of_mem _ List.mem_cons_self)
  obtain ⟨_, _, hrun, hend⟩ := exists_of_run_bind_ok hrun
  cases hend
  exact ⟨hdamage, attack_struck hdamage hforest hscope hrun⟩

end Evaluation

/-- Whatever the damage of an attack that ends normally has assigned on its way, the row that the
target means ends with the points that it had after that, less the damage. All other rows are as the
evaluation of the damage left them, and the enemy is told to be beaten exactly if no points are
left. -/
theorem attack_loses_no_update (built : Nat) (source : String) (program : Node)
    (state : ParseState Lexer)
    (h : Construct.program.parse built source = .ok (program, state)) (id : Nat)
    (target damage : Node) (hattack : (Node.action id .attack [target, damage]).Within program)
    (rounds depth : Nat) (scope : ScopeId) (table : Scope) (world last : World)
    (result : Option Operand) (hforest : world.forest.WellFormed)
    (hscope : world.forest.scope? scope = some table)
    (hrun : (Evaluation.evaluate rounds (depth + 1) (.action id .attack [target, damage])
      scope).run world = (.ok result, last)) :
    ∃ label name owner before operand between row m n told, target = .identifier label name ∧
      world.forest.resolve scope name = .ok (owner, before) ∧
      (Evaluation.evaluate rounds depth damage scope).run world = (.ok (some operand), between) ∧
      between.forest.resolve scope name = .ok (owner, row) ∧ row.value.integer? = some m ∧
      (operand.value between.forest).integer? = some n ∧
      last.forest.resolve scope name = .ok (owner, { row with value := .number (m - n) }) ∧
      (∀ id other, ¬ (id = owner ∧ other = name) →
        last.forest.row? id other = between.forest.row? id other) ∧
      last.events.toList = between.events.toList ++ told ∧
      (.line "Inimigo derrotado!" ∈ told ↔ m - n ≤ 0) := by
  obtain ⟨_, label, name, owner, before, operand, between, row, m, n, told, htarget, hbefore,
    hdamage, hstruck⟩ := Evaluation.parsed_attack_struck h hattack hforest hscope hrun
  refine ⟨label, name, owner, before, operand, between, row, m, n, _, htarget, hbefore, hdamage,
    hstruck.target, hstruck.points, hstruck.loss, hstruck.resolve, hstruck.elsewhere,
    hstruck.events, ?_⟩
  rw [List.mem_cons, Evaluation.mem_victory_iff]
  constructor
  · rintro (hline | hpoints)
    · have hfirst := congrArg (fun text => text.toList.head?) (Event.line.inj hline)
      simp at hfirst
    · exact hpoints
  · exact .inr

theorem attack_call_parses :
    ∃ state, Construct.program.parse 0 "attack(hp,f());" =
      .ok (.block 4 [.action 3 .attack [.identifier 1 "hp", .call 2 "f" []]], state) := by
  have hwritten : Written [.keyword .attack, .symbol .leftParen, .identifier "hp", .symbol .comma,
      .identifier "f", .symbol .leftParen, .symbol .rightParen, .symbol .rightParen,
      .symbol .semicolon] "attack(hp,f());".toList :=
    .token (.token (.token (.token (.token (.token (.token (.token (.token .nil))))))))
  obtain ⟨hfault, hwords⟩ := hwritten.words (by decide +kernel) (by decide +kernel)
  rw [String.ofList_toList] at hfault hwords
  have htarget : Reads .expression 0 [.identifier "hp"] [.identifier 1 "hp"] 1 :=
    Reads.loosen (k := .factor) .name (by decide)
  have hdamage : Reads .expression 1 [.identifier "f", .symbol .leftParen, .symbol .rightParen]
      [.call 2 "f" []] 2 :=
    Reads.loosen (k := .factor) (.call .noItems) (by decide)
  have hattack : Keyword.attack ∈ Keyword.actions := by decide
  have hreads := Reads.programNext (by decide)
    (.action hattack (.someItems (.itemNext htarget (.itemLast hdamage)))) .programEnd
  obtain ⟨d, hparse⟩ := program_parses hfault (by rw [hwords]; exact hreads)
  exact ⟨_, hparse⟩

/-- In `attack(hp,f());` the function sets `hp` to seven, which was ten, and returns three. -/
theorem weakened_target_attacked :
    ∃ (program : Node) (state : ParseState Lexer) (world last : World),
      Construct.program.parse 0 "attack(hp,f());" = .ok (program, state) ∧
      world.forest.WellFormed ∧ world.forest.scope? 1 = some ⟨[0], [], 4⟩ ∧
      (world.forest.row? 0 "hp").map Row.value = some (.number 10) ∧
      (Evaluation.evaluate 1 9 (.action 3 .attack [.identifier 1 "hp", .call 2 "f" []]) 1).run
        world = (.ok none, last) ∧
      last.forest.resolve 1 "hp" = .ok (0, ⟨"hp", .number, .number 4, 4, false⟩) ∧
      .line "Inimigo derrotado!" ∉ last.events.toList := by
  obtain ⟨state, hparse⟩ := attack_call_parses
  obtain ⟨world, later, hforest, hscope, hbefore, hcall, hlater, hok⟩ :
      ∃ (world : World) (later : Forest), world.forest.WellFormed ∧
      world.forest.scope? 1 = some ⟨[0], [], 4⟩ ∧
      (world.forest.row? 0 "hp").map Row.value = some (.number 10) ∧
      (Evaluation.evaluate 1 8 (.call 2 "f" []) 1).run world =
        (.ok (some (.temporary .number (.number 3))), ⟨later, #[], .numbered⟩) ∧
      later.resolve 1 "hp" = .ok (0, ⟨"hp", .number, .number 7, 4, false⟩) ∧
      ((Evaluation.evaluate 1 9 (.action 3 .attack [.identifier 1 "hp", .call 2 "f" []]) 1).run
        world).1.isOk = true := by
    refine ⟨⟨⟨#[⟨[], [⟨"hp", .number, .number 10, 4, false⟩, ⟨"f", .number,
      .function ⟨0, "f", some .number, [.identifier 0 "f", .block 0
        [.assignment 0 (.identifier 0 "hp") (.number 0 7), .result 0 (some (.number 0 3))]]⟩, 8,
      true⟩], 12⟩, ⟨[0], [], 4⟩]⟩, #[], .numbered⟩, _, ?_, rfl, rfl, rfl, rfl, by decide +kernel⟩
    constructor <;> rintro (_ | _ | id) scope hscope <;> cases hscope <;> decide
  obtain ⟨result, last, hrun⟩ := Evaluation.exists_run_of_isOk hok
  obtain ⟨label, name, owner, before, operand, between, row, m, n, told, htarget, _, hdamage, hrow,
    hm, hn, hlast, _, hevents, htold⟩ := attack_loses_no_update 0 _ _ state hparse 3 _ _
      (.inside List.mem_cons_self (.root _)) 1 8 1 _ world last result hforest hscope hrun
  cases htarget
  rw [hcall] at hdamage
  cases hdamage
  rw [hlater] at hrow
  cases hrow
  cases hm
  cases hn
  obtain ⟨_, _, _, hend⟩ := Evaluation.exists_of_run_bind_ok hrun
  cases hend
  refine ⟨_, state, world, last, hparse, hforest, hscope, hbefore, hrun, hlast, ?_⟩
  rw [hevents, List.nil_append, htold]
  decide

/-- The damage that an attack tells of is the amount that it has taken, unless the damage is the row
of the target itself. Then all points are taken and none are told. A damage that is neither a name
nor a call, also after plus signs, is no row. -/
theorem attack_told (built : Nat) (source : String) (program : Node) (state : ParseState Lexer)
    (h : Construct.program.parse built source = .ok (program, state)) (id : Nat)
    (target damage : Node) (hattack : (Node.action id .attack [target, damage]).Within program)
    (rounds depth : Nat) (scope : ScopeId) (table : Scope) (world last : World)
    (result : Option Operand) (hforest : world.forest.WellFormed)
    (hscope : world.forest.scope? scope = some table)
    (hrun : (Evaluation.evaluate rounds (depth + 1) (.action id .attack [target, damage])
      scope).run world = (.ok result, last)) :
    ∃ label name owner operand between row m n told rest, target = .identifier label name ∧
      (Evaluation.evaluate rounds depth damage scope).run world = (.ok (some operand), between) ∧
      between.forest.resolve scope name = .ok (owner, row) ∧ row.value.integer? = some m ∧
      (operand.value between.forest).integer? = some n ∧
      last.forest.resolve scope name = .ok (owner, { row with value := .number (m - n) }) ∧
      last.events.toList = between.events.toList ++ .line ("Atacado com " ++ told ++ "! " ++ name ++
        " agora = " ++ Numeral.decimal (m - n)) :: rest ∧
      (¬ operand.Refers owner name →
        ∀ titles, (operand.value between.forest).display titles = .ok told) ∧
      (operand.Refers owner name → n = m ∧ told = "0") ∧
      (damage.isReference = false → ¬ operand.Refers owner name) := by
  obtain ⟨hsourced, label, name, owner, before, operand, between, row, m, n, told, htarget, hbefore,
    hdamage, hstruck⟩ := Evaluation.parsed_attack_struck h hattack hforest hscope hrun
  refine ⟨label, name, owner, operand, between, row, m, n, told, _, htarget, hdamage,
    hstruck.target, hstruck.points, hstruck.loss, hstruck.resolve, hstruck.events,
    hstruck.told_of_not_refers, hstruck.told_of_refers, ?_⟩
  rintro hreference ⟨found, rfl, _⟩
  have htemporary := Evaluation.evaluate_temporaryOn rounds depth damage scope hsourced hreference
  obtain ⟨type, value, hvalue⟩ := htemporary world between _ hdamage _ rfl
  cases hvalue

/-- In `attack(hp,f());` the function sets `hp` to seven and returns `hp` itself. The seven points
are taken, and it is told that there were none. -/
theorem returned_target_attacked :
    ∃ (program : Node) (state : ParseState Lexer) (world last : World) (rest : List Event),
      Construct.program.parse 0 "attack(hp,f());" = .ok (program, state) ∧
      world.forest.WellFormed ∧ world.forest.scope? 1 = some ⟨[0], [], 4⟩ ∧
      (world.forest.row? 0 "hp").map Row.value = some (.number 10) ∧
      (Evaluation.evaluate 1 9 (.action 3 .attack [.identifier 1 "hp", .call 2 "f" []]) 1).run
        world = (.ok none, last) ∧
      last.forest.resolve 1 "hp" = .ok (0, ⟨"hp", .number, .number 0, 4, false⟩) ∧
      last.events.toList = .line "Atacado com 0! hp agora = 0" :: rest := by
  obtain ⟨state, hparse⟩ := attack_call_parses
  obtain ⟨world, later, hforest, hscope, hbefore, hcall, hlater, hok⟩ :
      ∃ (world : World) (later : Forest), world.forest.WellFormed ∧
      world.forest.scope? 1 = some ⟨[0], [], 4⟩ ∧
      (world.forest.row? 0 "hp").map Row.value = some (.number 10) ∧
      (Evaluation.evaluate 1 8 (.call 2 "f" []) 1).run world =
        (.ok (some (.variable 0 ⟨"hp", .number, .number 7, 4, false⟩)), ⟨later, #[], .numbered⟩) ∧
      later.resolve 1 "hp" = .ok (0, ⟨"hp", .number, .number 7, 4, false⟩) ∧
      ((Evaluation.evaluate 1 9 (.action 3 .attack [.identifier 1 "hp", .call 2 "f" []]) 1).run
        world).1.isOk = true := by
    refine ⟨⟨⟨#[⟨[], [⟨"hp", .number, .number 10, 4, false⟩, ⟨"f", .number,
      .function ⟨0, "f", some .number, [.identifier 0 "f", .block 0
        [.assignment 0 (.identifier 0 "hp") (.number 0 7),
          .result 0 (some (.identifier 0 "hp"))]]⟩, 8, true⟩], 12⟩, ⟨[0], [], 4⟩]⟩, #[], .numbered⟩,
      _, ?_, rfl, rfl, rfl, rfl, by decide +kernel⟩
    constructor <;> rintro (_ | _ | id) scope hscope <;> cases hscope <;> decide
  obtain ⟨result, last, hrun⟩ := Evaluation.exists_run_of_isOk hok
  obtain ⟨label, name, owner, operand, between, row, m, n, told, rest, htarget, hdamage, hrow, hm,
    hn, hlast, hevents, _, htold, _⟩ := attack_told 0 _ _ state hparse 3 _ _
      (.inside List.mem_cons_self (.root _)) 1 8 1 _ world last result hforest hscope hrun
  cases htarget
  rw [hcall] at hdamage
  cases hdamage
  rw [hlater] at hrow
  cases hrow
  cases hm
  obtain ⟨rfl, rfl⟩ := htold ⟨_, rfl, rfl⟩
  obtain ⟨_, _, _, hend⟩ := Evaluation.exists_of_run_bind_ok hrun
  cases hend
  exact ⟨_, state, world, last, rest, hparse, hforest, hscope, hbefore, hrun, hlast, hevents⟩

/-- The five points of `hp` are taken, and it is told that there were none. -/
theorem own_points_untold :
    let report := (Session.start.run .numbered "hp: number = 5; attack(hp, hp);").1
    report.events = [.line "Atacado com 0! hp agora = 0", .line "Inimigo derrotado!"] ∧
      report.globals.map (fun row => (row.name, row.value.integer?)) = [("hp", some 0)] := by
  decide +kernel

end LevelScript

import LevelScript.Proofs.Evaluation.Independence
import LevelScript.Proofs.Evaluation.Inventory
import LevelScript.Proofs.Evaluation.Safety

set_option autoImplicit false

/-!
# Actions are done or not begun

An action first looks: it evaluates its arguments, finds the variables and makes its checks. Then it
acts, and from there on only one thing can stop it: a number that is too large to be written. So an
action that stops for another reason has changed nothing and told nothing.
-/

namespace LevelScript

namespace Numeral

theorem error_of_write {n : Int} {cause : NumeralFault} (h : write n = .error cause) :
    cause = .tooLarge := by
  rw [write] at h
  split at h
  · cases h
  · cases h
    rfl

end Numeral

namespace Value

variable {titles : Titles}

mutual

theorem error_of_written {cause : NumeralFault} :
    (value : Value) → value.written titles = .error cause → cause = .tooLarge
  | .number n => by
    rw [written]
    exact Numeral.error_of_write
  | .text _ | .boolean _ | .void | .function _ => by simp [written]
  | .array items => by
    intro h
    rw [written] at h
    cases hitems : writtenItems titles items with
    | ok texts =>
      rw [hitems] at h
      cases h
    | error fault =>
      rw [hitems] at h
      cases h
      exact error_of_writtenItems items hitems

theorem error_of_writtenItems {cause : NumeralFault} :
    (items : List Value) → writtenItems titles items = .error cause → cause = .tooLarge
  | [] => by simp [writtenItems]
  | item :: items => by
    intro h
    rw [writtenItems] at h
    cases hitem : item.written titles with
    | error fault =>
      rw [hitem] at h
      cases h
      exact error_of_written item hitem
    | ok text =>
      rw [hitem] at h
      cases hitems : writtenItems titles items with
      | ok texts =>
        rw [hitems] at h
        cases h
      | error fault =>
        rw [hitems] at h
        cases h
        exact error_of_writtenItems items hitems

end

theorem error_of_display {value : Value} {cause : NumeralFault}
    (h : value.display titles = .error cause) : cause = .tooLarge ∧ value.kind ≠ .text := by
  cases value with
  | text s => cases h
  | number | boolean | array | void | function =>
    simp only [display] at h
    exact ⟨error_of_written _ h, nofun⟩

theorem display_number (n : Int) : (number n).display titles = Numeral.write n := by
  rw [display, written]
  nofun

theorem Fits.display {functions : Bool} {value : Value} (h : value.Fits functions .text) :
    ∃ text, value.display titles = .ok text := by
  cases h with
  | text => exact ⟨_, rfl⟩
  | void => exact ⟨_, rfl⟩
  | function => exact ⟨_, rfl⟩

/-- A difference is a number; there is no other kind of value that can be subtracted from. -/
theorem integers_of_subtract {left right points : Value}
    (h : arithmetic .subtract left right = .ok points) :
    ∃ m n, left.integer? = some m ∧ right.integer? = some n ∧ points = .number (m - n) := by
  unfold arithmetic at h
  split at h
  · next m n hleft hright =>
    rw [if_neg fun hdivide => nomatch hdivide.1] at h
    cases h
    exact ⟨m, n, hleft, hright, rfl⟩
  · cases h

end Value

namespace Evaluation

variable {α β : Type}

def unwritable : Stop :=
  .fault (.numeral .tooLarge)

/-- Nothing but a number that is too large to be written stops the evaluation. -/
def Committed (x : Evaluation α) : Prop :=
  ∀ world last reason, x.run world = (.error reason, last) → reason = unwritable

/-- An evaluation that is stopped by anything else leaves the world as it was. -/
def Atomic (x : Evaluation α) : Prop :=
  ∀ world last reason, x.run world = (.error reason, last) → reason = unwritable ∨ last = world

theorem committed_pure (a : α) : Committed (pure a) := by
  intro world last reason hrun
  cases hrun

theorem committed_change (update : World → World) : Committed (change update) := by
  intro world last reason hrun
  cases hrun

theorem committed_forest : Committed Evaluation.forest := by
  intro world last reason hrun
  cases hrun

theorem committed_say (text : String) : Committed (say text) :=
  committed_change _

theorem committed_display (value : Value) : Committed (display value) := by
  intro world last reason hrun
  rw [run_display, run_ofExcept] at hrun
  split at hrun
  · cases hrun
  · next cause hdisplay =>
    obtain ⟨rfl, _⟩ := Value.error_of_display hdisplay
    cases hrun
    rfl

theorem Committed.bind {x : Evaluation α} {f : α → Evaluation β} (hx : Committed x)
    (hf : ∀ a, Committed (f a)) : Committed (x >>= f) := by
  intro world last reason hrun
  rcases run_bind_stopped hrun with hfirst | ⟨a, between, _, hrest⟩
  · exact hx world last reason hfirst
  · exact hf a between last reason hrest

theorem committed_report (value : Value) (text : String → String) :
    Committed (display value >>= fun shown => say (text shown)) :=
  (committed_display value).bind fun _ => committed_say _

theorem Committed.atomic {x : Evaluation α} (h : Committed x) : Atomic x :=
  fun world last reason hrun => .inl (h world last reason hrun)

theorem Still.atomic {x : Evaluation α} (h : Still x) : Atomic x := by
  intro world last reason hrun
  have hstill := h.run world
  rw [hrun] at hstill
  exact .inr hstill

theorem Still.atomic_bind {x : Evaluation α} {f : α → Evaluation β} (hx : Still x)
    (hf : ∀ a, Atomic (f a)) : Atomic (x >>= f) := by
  intro world last reason hrun
  rcases run_bind_stopped hrun with hfirst | ⟨a, between, hfirst, hrest⟩
  · exact hx.atomic world last reason hfirst
  · have hstill := hx.run world
    rw [hfirst] at hstill
    obtain rfl : between = world := hstill
    exact hf a between last reason hrest

theorem Atomic.bind {x : Evaluation α} {f : α → Evaluation β} (hx : Atomic x)
    (hf : ∀ a, Committed (f a)) : Atomic (x >>= f) := by
  intro world last reason hrun
  rcases run_bind_stopped hrun with hfirst | ⟨a, between, _, hrest⟩
  · exact hx world last reason hfirst
  · exact .inl (hf a between last reason hrest)

theorem atomic_raise (cause : Fault) : Atomic (raise cause : Evaluation α) :=
  (looks_raise cause).still.atomic

theorem atomic_unless {p : Prop} [Decidable p] {cause : Fault} {f : β → Evaluation α}
    {x : Evaluation α} (hx : Atomic x) : Atomic (if p then raise cause >>= f else x) := by
  split
  · exact atomic_raise cause
  · exact hx

theorem atomic_assign (scope : ScopeId) (name : String) (type : TypeName) (value : Value) :
    Atomic (assign scope name type value) :=
  looks_forest.still.atomic_bind fun _ => (looks_ofExcept _ _).still.atomic_bind fun _ =>
    (committed_change _).atomic

theorem atomic_report (value : Value) (text : String → String) :
    Atomic (display value >>= fun shown => say (text shown)) :=
  (committed_report value text).atomic

section Actions

variable {eval : Evaluator} {scope : ScopeId} {arguments : List Node}

theorem atomic_sayAction (ha : ∀ node ∈ arguments, Still (eval node scope)) :
    Atomic (sayAction eval scope arguments) := by
  unfold sayAction
  split
  · refine (List.forall_mem_singleton.1 ha).atomic_bind fun result => ?_
    exact (looks_valueOf result).still.atomic_bind fun value => atomic_report value id
  · exact atomic_raise _

theorem atomic_waitFor (duration : Value) : Atomic (waitFor duration) := by
  unfold waitFor
  split
  · split
    · exact atomic_raise _
    split
    · exact atomic_raise _
    · exact (committed_change _).atomic
  · exact (committed_change _).atomic
  · exact atomic_raise _

theorem atomic_waitAction (ha : ∀ node ∈ arguments, Still (eval node scope)) :
    Atomic (waitAction eval scope arguments) := by
  unfold waitAction
  split
  · refine (List.forall_mem_singleton.1 ha).atomic_bind fun result => ?_
    refine (looks_typeOf result).still.atomic_bind fun _ => atomic_unless ?_
    exact (looks_valueOf result).still.atomic_bind fun value => atomic_waitFor value
  · exact atomic_raise _

theorem atomic_moveAction (ha : ∀ node ∈ arguments, Still (eval node scope)) :
    Atomic (moveAction eval scope arguments) := by
  unfold moveAction
  split
  · refine (List.forall_mem_singleton.1 ha).atomic_bind fun result => ?_
    refine (looks_typeOf result).still.atomic_bind fun _ => atomic_unless ?_
    refine (looks_valueOf result).still.atomic_bind fun value => ?_
    exact atomic_report value fun shown => "Movendo " ++ shown ++ " unidades"
  · exact atomic_raise _

/-- The points after a strike are a number, so that they can be compared with zero. -/
theorem atomic_strike (name : String) {left right points : Value} {lead : Evaluation String}
    (hpoints : Value.arithmetic .subtract left right = .ok points) (hlead : Committed lead) :
    Atomic (strike scope name points lead) := by
  obtain ⟨m, n, _, _, rfl⟩ := Value.integers_of_subtract hpoints
  refine (atomic_assign scope name .number _).bind fun _ => hlead.bind fun _ => ?_
  refine (committed_display _).bind fun _ => (committed_say _).bind fun _ => ?_
  refine Committed.bind (x := ofExcept .value (.ok _)) (committed_pure _) fun beaten => ?_
  split
  · exact committed_say _
  · exact committed_pure _

theorem atomic_subtract {left right : Value} {f : Value → Evaluation α}
    (hf : ∀ points, Value.arithmetic .subtract left right = .ok points → Atomic (f points)) :
    Atomic (ofExcept .value (Value.arithmetic .subtract left right) >>= f) := by
  cases hpoints : Value.arithmetic .subtract left right with
  | error cause => exact atomic_raise _
  | ok points => exact hf points hpoints

theorem atomic_attackAction (ha : ∀ node ∈ arguments, Still (eval node scope)) :
    Atomic (attackAction eval scope arguments) := by
  unfold attackAction
  split
  · refine looks_forest.still.atomic_bind fun forest => ?_
    split
    · exact atomic_raise _
    · refine atomic_unless (atomic_subtract fun points hpoints => ?_)
      exact atomic_strike _ hpoints (committed_pure _)
  · refine (List.forall_mem_singleton.1 ha).atomic_bind fun target => ?_
    refine (looks_typeOf target).still.atomic_bind fun _ => atomic_unless ?_
    refine (looks_valueOf target).still.atomic_bind fun _ => ?_
    refine atomic_subtract fun points hpoints => ?_
    exact atomic_strike _ hpoints (committed_pure _)
  · exact atomic_raise _
  · obtain ⟨htarget, ha⟩ := List.forall_mem_cons.1 ha
    refine htarget.atomic_bind fun target => ?_
    refine (List.forall_mem_singleton.1 ha).atomic_bind fun damage => ?_
    refine (looks_typeOf target).still.atomic_bind fun _ => atomic_unless ?_
    cases damage with
    | none => exact atomic_raise _
    | some damage =>
      refine (looks_typeOf _).still.atomic_bind fun _ => atomic_unless ?_
      refine (looks_valueOf target).still.atomic_bind fun _ => ?_
      refine (looks_valueOf _).still.atomic_bind fun _ => atomic_subtract fun points hpoints => ?_
      -- the damage is read again when the target has changed; it is there, as its type was
      refine atomic_strike _ hpoints ?_
      refine Committed.bind (committed_forest.bind fun _ => committed_pure _) fun value => ?_
      exact (committed_display value).bind fun _ => committed_pure _
  · exact atomic_raise _
  · exact atomic_raise _

theorem still_gatheredItem {argument : Node} (ha : Still (eval argument scope)) :
    Still (gatheredItem eval scope argument) :=
  gatheredItem_composed composes_still ha

theorem atomic_gatherAction (ha : ∀ node ∈ arguments, Still (eval node scope)) :
    Atomic (gatherAction eval scope arguments) := by
  unfold gatherAction
  split
  · have hargument := List.forall_mem_singleton.1 ha
    refine (still_gatheredItem hargument).atomic_bind fun item => ?_
    refine looks_forest.still.atomic_bind fun forest => ?_
    split
    · refine (committed_change _).atomic.bind fun _ => ?_
      exact committed_report item fun shown => "Item '" ++ shown ++ "' adicionado ao inventory"
    · exact atomic_report item fun shown => "Item coletado: " ++ shown
  · exact atomic_raise _

theorem atomic_usePotion (scope : ScopeId) : Atomic (usePotion scope) := by
  unfold usePotion
  refine looks_forest.still.atomic_bind fun forest => ?_
  split
  · exact atomic_raise _
  · refine atomic_unless (looks_forest.still.atomic_bind fun _ => ?_)
    refine (looks_ofExcept _ _).still.atomic_bind fun total => ?_
    refine looks_forest.still.atomic_bind fun _ => ?_
    refine (looks_ofExcept _ _).still.atomic_bind fun less => ?_
    generalize (if less = true then numberOr _ scope "max_health" total else total) = points
    refine (atomic_assign scope "health" .number points).bind fun _ => ?_
    refine committed_forest.bind fun _ => ?_
    have hreport := committed_report points fun shown =>
      "Você usou uma potion. Vida agora = " ++ shown
    dsimp only
    split
    · exact (committed_change _).bind fun _ => hreport
    · exact hreport

theorem atomic_useAction (ha : ∀ node ∈ arguments, Still (eval node scope)) :
    Atomic (useAction eval scope arguments) := by
  unfold useAction
  split
  · have huse (item : Value) : Atomic (display item >>= fun shown =>
        if shown = "potion" then usePotion scope else say ("Usando " ++ shown)) := by
      refine (looks_display item).still.atomic_bind fun shown => ?_
      split
      · exact atomic_usePotion scope
      · exact (committed_say _).atomic
    dsimp only
    split
    · exact huse _
    · refine (List.forall_mem_singleton.1 ha).atomic_bind fun result => ?_
      exact (looks_valueOf result).still.atomic_bind huse
  · exact atomic_raise _

theorem atomic_action (ha : ∀ node ∈ arguments, Still (eval node scope)) (name : ActionName) :
    Atomic (action eval scope name arguments) := by
  cases name with
  | say => exact atomic_sayAction ha
  | wait => exact atomic_waitAction ha
  | move => exact atomic_moveAction ha
  | attack => exact atomic_attackAction ha
  | gather => exact atomic_gatherAction ha
  | use => exact atomic_useAction ha
  | other name => exact atomic_raise _

theorem atomic_evaluate_action {functions : Bool} (rounds depth : Nat) (id : Nat)
    (name : ActionName) (scope : ScopeId)
    (ha : ∀ node ∈ arguments, Sourced functions .expression node)
    (hfree : ∀ node ∈ arguments, node.CallFree) :
    Atomic (evaluate rounds depth (.action id name arguments) scope) := by
  cases depth with
  | zero => exact (still_stop _).atomic
  | succ depth =>
    have hstill : ∀ node ∈ arguments, Still (evaluate rounds depth node scope) :=
      fun node hnode => evaluate_stillOn rounds depth node scope (ha node hnode) (hfree node hnode)
    exact (atomic_action hstill name).bind fun _ => committed_pure none

end Actions

end Evaluation

/-- There is an inventory that items can be added to: a variable for an array, with items in it. -/
def Forest.HasInventory (forest : Forest) (scope : ScopeId) : Prop :=
  ∃ owner value items, forest.Holds scope "inventory" owner .array value ∧
    value.items? = some items

namespace Evaluation

variable {forest : Forest} {scope : ScopeId} {eval : Evaluator} {argument : Node} {item : Value}
  {world : World}

theorem exists_added_iff (item : Value) :
    (∃ changed, ((inventory? forest scope).bind fun items =>
      withInventory? forest scope (items ++ [item])) = some changed) ↔
      forest.HasInventory scope := by
  constructor
  · rintro ⟨changed, hchanged⟩
    obtain ⟨items, hitems, hchanged⟩ := Option.bind_eq_some_iff.1 hchanged
    rw [withInventory?] at hchanged
    split at hchanged
    · next later hassign =>
      obtain ⟨owner, value, hholds⟩ := Forest.exists_holds_of_assign hassign
      exact ⟨owner, value, items, hholds, hholds.inventory? ▸ hitems⟩
    · cases hchanged
  · rintro ⟨owner, value, items, hholds, hitems⟩
    rw [hholds.inventory?, hitems, Option.bind_some, hholds.withInventory?]
    exact ⟨_, rfl⟩

theorem run_gatherAction_of_not_hasInventory (h : ¬ world.forest.HasInventory scope)
    (hitem : (gatheredItem eval scope argument).run world = (.ok item, world)) :
    (gatherAction eval scope [argument]).run world =
      (display item >>= fun shown => say ("Item coletado: " ++ shown)).run world := by
  have hnone : ((inventory? world.forest scope).bind fun items =>
      withInventory? world.forest scope (items ++ [item])) = none := by
    rw [Option.eq_none_iff_forall_ne_some]
    exact fun changed hchanged => h ((exists_added_iff item).1 ⟨changed, hchanged⟩)
  rw [gatherAction, run_bind_ok hitem, run_bind_ok (run_forest world), hnone]

theorem run_report_ok {shown : String} (h : item.display world.titles = .ok shown)
    (text : String → String) :
    (display item >>= fun shown => say (text shown)).run world =
      (.ok (), { world with events := world.events.push (.line (text shown)) }) := by
  rw [run_bind, run_display, h]
  rfl

theorem run_report_error {cause : NumeralFault} (h : item.display world.titles = .error cause)
    (text : String → String) :
    (display item >>= fun shown => say (text shown)).run world = (.error unwritable, world) := by
  obtain ⟨rfl, _⟩ := Value.error_of_display h
  rw [run_bind, run_display, h]
  rfl

end Evaluation

inductive Session.Reached : Session → Prop where
  | start : Reached .start
  | run {session : Session} (titles : Titles) (source : String) :
      Reached session → Reached (session.run titles source).2

/-- A moment of a run of a source, after other ones. -/
def World.Arises (world : World) : Prop :=
  ∃ (session : Session) (titles : Titles) (source : String) (program : Node)
    (state : ParseState Lexer) (rounds depth : Nat), session.Reached ∧
    Construct.program.parse session.built source = .ok (program, state) ∧
    world ∈ (Evaluation.evaluate rounds depth program session.root).moments
      ⟨session.forest, #[], titles⟩

theorem Session.Reached.typed {session : Session} (h : session.Reached) :
    session.forest.Typed true := by
  induction h with
  | start => exact Session.start_typed true
  | @run session titles source _ ih =>
    rw [Session.run]
    split
    · exact ih
    · next program state hparse =>
      exact moments_typed true hparse (.inl rfl) _ _ _ ih _ (Evaluation.run_mem_moments _ _)

theorem World.Arises.typed {world : World} (h : world.Arises) : world.forest.Typed true := by
  obtain ⟨session, titles, source, program, state, rounds, depth, hreached, hparse, hmoment⟩ := h
  exact moments_typed true hparse (.inl rfl) rounds depth session.root hreached.typed world hmoment

/-- An action of a source that calls no function in its arguments leaves the world as it was when it
is stopped, unless by a number that is too large to be written. A `gather` that has found its item
and no inventory changes no variable, is not stopped and tells of the item only. A world in which it
could be stopped, by an item that is no text and holds such a number, is one that no run of sources
comes to. -/
theorem parsed_action_atomic (built : Nat) (source : String) (program : Node)
    (state : ParseState Lexer)
    (h : Construct.program.parse built source = .ok (program, state)) (id : Nat)
    (name : ActionName) (arguments : List Node)
    (haction : (Node.action id name arguments).Within program)
    (hfree : ∀ argument ∈ arguments, argument.CallFree) (rounds depth : Nat) (scope : ScopeId)
    (world : World) :
    (∀ reason last,
      (Evaluation.evaluate rounds depth (.action id name arguments) scope).run world =
        (.error reason, last) → reason ≠ .fault (.numeral .tooLarge) → last = world) ∧
    ∀ argument item, name = .gather → arguments = [argument] →
      ((Evaluation.gatheredItem (Evaluation.evaluate rounds depth) scope argument).run world).1 =
        .ok item → ¬ world.forest.HasInventory scope →
      let run :=
        (Evaluation.evaluate rounds (depth + 1) (.action id name arguments) scope).run world
      (∃ text, item.display world.titles = .ok text ∧ run = (.ok none,
        { world with events := world.events.push (.line ("Item coletado: " ++ text)) })) ∨
      ¬ world.Arises ∧ item.kind ≠ .text ∧ run = (.error (.fault (.numeral .tooLarge)), world) := by
  obtain ⟨_, htree⟩ := sourced_of_parse (by decide) h
  obtain ⟨_, hcommand⟩ := htree.within haction
  have hsourced : ∀ argument ∈ arguments, Sourced true .expression argument := by
    cases hcommand with
    | action _ ha => exact ha
  refine ⟨fun reason last hrun hreason => ?_, ?_⟩
  · have hatomic := Evaluation.atomic_evaluate_action rounds depth id name scope hsourced hfree
    exact (hatomic world last reason hrun).resolve_left hreason
  rintro argument item rfl rfl hitem hinventory run
  have hargument := List.forall_mem_singleton.1 hsourced
  have hstill := Evaluation.still_gatheredItem (Evaluation.evaluate_stillOn rounds depth argument
    scope hargument (List.forall_mem_singleton.1 hfree))
  have hitem : (Evaluation.gatheredItem (Evaluation.evaluate rounds depth) scope argument).run
      world = (.ok item, world) := Prod.ext hitem (hstill.run world)
  have hrun : run = ((Evaluation.display item >>= fun shown =>
      Evaluation.say ("Item coletado: " ++ shown)) >>= fun _ => pure none).run world := by
    rw [Evaluation.run_bind,
      ← Evaluation.run_gatherAction_of_not_hasInventory hinventory hitem, ← Evaluation.run_bind]
    rfl
  cases hdisplay : item.display world.titles with
  | ok text =>
    refine .inl ⟨text, rfl, ?_⟩
    rw [hrun, Evaluation.run_bind_ok (Evaluation.run_report_ok hdisplay _)]
    rfl
  | error cause =>
    have hreport := Evaluation.run_report_error hdisplay ("Item coletado: " ++ ·)
    refine .inr ⟨fun harises => ?_, (Value.error_of_display hdisplay).2,
      hrun.trans (Evaluation.run_bind_error hreport _)⟩
    obtain ⟨_, _, hfits⟩ := (Evaluation.gatheredItem_sound
      (Evaluation.evaluate_soundOn rounds depth) hargument harises.typed).run rfl hitem
    obtain ⟨text, htext⟩ := hfits.display
    rw [htext] at hdisplay
    cases hdisplay

theorem gather_attack_parses :
    ∃ state, Construct.program.parse 0 "gather(+x);attack(x,1);" =
      .ok (.block 7 [.action 3 .gather [.unary 2 .plus (.identifier 1 "x")],
        .action 6 .attack [.identifier 4 "x", .number 5 1]], state) := by
  have hwritten : Written [.keyword .gather, .symbol .leftParen, .symbol .plus, .identifier "x",
      .symbol .rightParen, .symbol .semicolon, .keyword .attack, .symbol .leftParen,
      .identifier "x", .symbol .comma, .number 1, .symbol .rightParen, .symbol .semicolon]
      "gather(+x);attack(x,1);".toList :=
    .token (.token (.token (.token (.token (.token (.token (.token (.token (.token (.token (.token
      (.token .nil))))))))))))
  obtain ⟨hfault, hwords⟩ := hwritten.words (by decide +kernel) (by decide +kernel)
  rw [String.ofList_toList] at hfault hwords
  have hitem : Reads .expression 0 [.symbol .plus, .identifier "x"]
      [.unary 2 .plus (.identifier 1 "x")] 2 :=
    Reads.loosen (k := .factor) (.signed rfl .name) (by decide)
  have htarget : Reads .expression 3 [.identifier "x"] [.identifier 4 "x"] 4 :=
    Reads.loosen (k := .factor) .name (by decide)
  have hdamage : Reads .expression 4 [.number 1] [.number 5 1] 5 :=
    Reads.loosen (k := .factor) .number (by decide)
  have hgather : Keyword.gather ∈ Keyword.actions := by decide
  have hattack : Keyword.attack ∈ Keyword.actions := by decide
  have hreads := Reads.programNext (by decide) (.action hgather (.someItems (.itemLast hitem)))
    (.programNext (by decide)
      (.action hattack (.someItems (.itemNext htarget (.itemLast hdamage)))) .programEnd)
  obtain ⟨d, hparse⟩ := program_parses hfault (by rw [hwords]; exact hreads)
  exact ⟨_, hparse⟩

theorem callFree_signed (id label : Nat) (name : String) :
    (Node.unary id .plus (.identifier label name)).CallFree :=
  .of_children nofun (List.forall_mem_singleton.2 (.of_children nofun nofun))

/-- While `x` is a text and the inventory a number, `attack(x,1);` is stopped before it changes
anything, and `gather(+x);` only tells of the text. -/
theorem gather_attack_atomic :
    let world : World := ⟨⟨#[⟨[], [⟨"x", .text, .text "ouro", 4, false⟩,
      ⟨"inventory", .number, .number 0, 8, false⟩], 12⟩]⟩, #[.line "ola"], .numbered⟩
    ∃ program state reason last,
      Construct.program.parse 0 "gather(+x);attack(x,1);" = .ok (program, state) ∧
      ¬ world.forest.HasInventory 0 ∧
      (Evaluation.evaluate 1 9 (.action 6 .attack [.identifier 4 "x", .number 5 1]) 0).run world =
        (.error reason, last) ∧ last = world ∧
      (Evaluation.evaluate 1 9 (.action 3 .gather [.unary 2 .plus (.identifier 1 "x")]) 0).run
        world =
          (.ok none, { world with events := #[.line "ola", .line "Item coletado: ouro"] }) := by
  intro world
  obtain ⟨state, hparse⟩ := gather_attack_parses
  have hinventory : ¬ world.forest.HasInventory 0 := by
    rintro ⟨owner, value, items, ⟨row, hresolve, _, htype, _⟩, _⟩
    cases hresolve
    cases htype
  have hfree : ∀ argument ∈ [Node.identifier 4 "x", .number 5 1], argument.CallFree :=
    List.forall_mem_cons.2
      ⟨.of_children nofun nofun, List.forall_mem_singleton.2 (.of_children nofun nofun)⟩
  have hattack := (parsed_action_atomic 0 _ _ state hparse 6 .attack _
    (.inside (List.mem_cons_of_mem _ List.mem_cons_self) (.root _)) hfree 1 9 0 world).1
    (.fault (.action .attackNonNumbers)) _ rfl nofun
  have hgather := (parsed_action_atomic 0 _ _ state hparse 3 .gather _
    (.inside List.mem_cons_self (.root _)) (List.forall_mem_singleton.2 (callFree_signed 2 1 "x"))
    1 8 0 world).2 _ (.text "ouro") rfl rfl rfl hinventory
  obtain ⟨_, ⟨⟩, hgathered⟩ | ⟨_, hkind, _⟩ := hgather
  · exact ⟨_, state, _, _, hparse, hinventory, rfl, hattack, hgathered⟩
  · exact absurd rfl hkind

end LevelScript

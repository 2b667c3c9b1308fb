import LevelScript.Proofs.Evaluation.Atomicity

set_option autoImplicit false

namespace LevelScript

theorem Value.isPotion_iff {value : Value} : value.isPotion = true ↔ value = .text "potion" := by
  cases value <;> simp [Value.isPotion]

namespace Forest

/-- What a potion has made of a forest when it has been used in `scope` and `points` are the health
after it, which `body` has. -/
structure Healed (scope body : ScopeId) (points : Int) (forest later : Forest) : Prop where
  health : later.row? body "health" =
    (forest.row? body "health").map fun row => { row with value := .number points }
  /-- The first potion is taken out of the inventory. -/
  inventory : ∀ pouch before after, .text "potion" ∉ before →
    forest.Holds scope "inventory" pouch .array (.array (before ++ .text "potion" :: after)) →
    later.row? pouch "inventory" =
      (forest.row? pouch "inventory").map fun row => { row with value := .array (before ++ after) }
  /-- There is no other change, nor one to an inventory without a potion. -/
  elsewhere : ∀ owner name, ¬ (owner = body ∧ name = "health") →
    ¬ (name = "inventory" ∧ ∃ items, .text "potion" ∈ items ∧
      forest.Holds scope "inventory" owner .array (.array items)) →
    later.row? owner name = forest.row? owner name
  chain : ∀ id, later.chain id = forest.chain id

end Forest

namespace Evaluation

variable {forest : Forest} {scope pouch body : ScopeId} {items before after : List Value}

theorem withoutPotion_of_potion (hbefore : .text "potion" ∉ before)
    (h : forest.Holds scope "inventory" pouch .array
      (.array (before ++ .text "potion" :: after))) :
    withoutPotion forest scope = forest.write pouch "inventory" (.array (before ++ after)) := by
  have hnone : ∀ item ∈ before, ¬ item.isPotion = true := by
    intro item hitem hpotion
    exact hbefore (Value.isPotion_iff.1 hpotion ▸ hitem)
  have hleft : withoutPotion? (before ++ .text "potion" :: after) = some (before ++ after) := by
    simp only [withoutPotion?, Value.same_potion]
    rw [if_pos (by simp [Value.isPotion]), List.eraseP_append_right _ hnone,
      List.eraseP_cons_of_pos rfl]
  rw [withoutPotion, h.inventory?, Value.items?, Option.bind_some, hleft, Option.bind_some,
    h.withInventory?, Option.getD_some]

/-- The characters of a text are not potions, so only an array of items can hold one. -/
theorem array_of_potion {value : Value} (h : value.items? = some items)
    (hpotion : .text "potion" ∈ items) : value = .array items := by
  cases value with
  | array found =>
    cases h
    rfl
  | text s =>
    cases h
    obtain ⟨c, _, hc⟩ := List.mem_map.1 hpotion
    have hlength := congrArg String.length (Value.text.inj hc)
    rw [String.length_singleton] at hlength
    exact absurd hlength (by decide)
  | number | boolean | void | function => cases h

theorem withoutPotion_of_none
    (h : ∀ pouch items, forest.Holds scope "inventory" pouch .array (.array items) →
      .text "potion" ∉ items) : withoutPotion forest scope = forest := by
  rw [withoutPotion]
  cases hitems : inventory? forest scope with
  | none => rfl
  | some items =>
    rw [Option.bind_some, withoutPotion?]
    simp only [Value.same_potion]
    by_cases hany : items.any Value.isPotion = true
    · rw [if_pos hany, Option.bind_some, withInventory?]
      obtain ⟨item, hitem, hpotion⟩ := List.any_eq_true.1 hany
      obtain rfl := Value.isPotion_iff.1 hpotion
      cases hassign : forest.assign scope "inventory" .array
          (.array (items.eraseP Value.isPotion)) with
      | error cause => rfl
      | ok changed =>
        obtain ⟨owner, value, hholds⟩ := Forest.exists_holds_of_assign hassign
        rw [hholds.inventory?] at hitems
        obtain rfl := array_of_potion hitems hitem
        exact absurd hitem (h owner items hholds)
    · rw [if_neg hany]
      rfl

theorem withoutPotion_cases (forest : Forest) (scope : ScopeId) :
    (∃ pouch before after,
      forest.Holds scope "inventory" pouch .array (.array (before ++ .text "potion" :: after)) ∧
      withoutPotion forest scope = forest.write pouch "inventory" (.array (before ++ after))) ∨
    withoutPotion forest scope = forest := by
  by_cases hpotion : ∃ pouch items, forest.Holds scope "inventory" pouch .array (.array items) ∧
      .text "potion" ∈ items
  · obtain ⟨pouch, items, hholds, hmem⟩ := hpotion
    obtain ⟨before, after, rfl, hbefore⟩ := List.eq_append_cons_of_mem hmem
    exact .inl ⟨pouch, before, after, hholds, withoutPotion_of_potion hbefore hholds⟩
  · exact .inr (withoutPotion_of_none fun pouch items hholds hmem =>
      hpotion ⟨pouch, items, hholds, hmem⟩)

theorem healed_withoutPotion (forest : Forest) (scope body : ScopeId) (points : Int) :
    forest.Healed scope body points
      (withoutPotion (forest.write body "health" (.number points)) scope) := by
  generalize hwritten : forest.write body "health" (.number points) = written
  -- the inventory is found where it was before the health was written
  have hinventory (pouch : ScopeId) (value : Value) :
      written.Holds scope "inventory" pouch .array value ↔
        forest.Holds scope "inventory" pouch .array value := by
    rw [← hwritten, Forest.Holds, Forest.Holds, Forest.resolve_write_of_ne (by decide)]
  have hcases := withoutPotion_cases written scope
  constructor
  · have hhealth := hwritten ▸ forest.row?_write_self body "health" (.number points)
    rcases hcases with ⟨pouch, before, after, _, heq⟩ | heq
    · rw [heq, written.row?_write_of_ne (by simp), hhealth]
    · rw [heq, hhealth]
  · intro pouch before after hbefore hholds
    rw [withoutPotion_of_potion hbefore ((hinventory ..).2 hholds), written.row?_write_self,
      ← hwritten, forest.row?_write_of_ne (by simp)]
  · intro owner name hhealth hpotion
    have hsame : written.row? owner name = forest.row? owner name :=
      hwritten ▸ forest.row?_write_of_ne hhealth (.number points)
    rcases hcases with ⟨pouch, before, after, hholds, heq⟩ | heq
    · rw [heq, written.row?_write_of_ne, hsame]
      rintro ⟨rfl, rfl⟩
      exact hpotion ⟨rfl, _, List.mem_append_right _ List.mem_cons_self, (hinventory ..).1 hholds⟩
    · rw [heq, hsame]
  · intro id
    have hsame : written.chain id = forest.chain id :=
      hwritten ▸ forest.chain_write body id "health" (.number points)
    rcases hcases with ⟨pouch, before, after, _, heq⟩ | heq
    · rw [heq, written.chain_write, hsame]
    · rw [heq, hsame]

theorem run_useAction_potion {rounds depth : Nat} {argument : Node}
    (hitem : argument.item? = some "potion") (scope : ScopeId) (world : World) :
    (useAction (evaluate rounds (depth + 1)) scope [argument]).run world =
      (usePotion scope).run world := by
  cases argument with
  | identifier id name =>
    cases hitem
    rfl
  | text id text =>
    cases hitem
    rfl
  | _ => cases hitem

theorem run_report_number (n : Int) (text : String → String) (world : World) :
    (display (.number n) >>= fun shown => say (text shown)).run world =
      if n.natAbs < Nat.pow 10 Numeral.digitLimit then
        (.ok (), { world with events := world.events.push (.line (text (Numeral.decimal n))) })
      else (.error unwritable, world) := by
  split
  · next hsmall => exact run_report_ok ((Value.display_number n).trans (if_pos hsmall)) text
  · next hlarge =>
    exact run_report_error ((Value.display_number n).trans (if_neg hlarge)) text

theorem run_potion {rounds depth id : Nat} {argument : Node} {scope body : ScopeId}
    {heal most : Option Int} {health : Int} {world : World}
    (hitem : argument.item? = some "potion")
    (hhealth : world.forest.Holds scope "health" body .number (.number health))
    (hheal : world.forest.Sets scope "potion_heal" heal)
    (hmost : world.forest.Sets scope "max_health" most) :
    let points := healed heal most health
    let later := withoutPotion (world.forest.write body "health" (.number points)) scope
    (evaluate rounds (depth + 2) (.action id .use [argument]) scope).run world =
      if points.natAbs < Nat.pow 10 Numeral.digitLimit then
        (.ok none, ⟨later, world.events.push
          (.line ("Você usou uma potion. Vida agora = " ++ Numeral.decimal points)), world.titles⟩)
      else (.error unwritable, { world with forest := later }) := by
  intro points later
  have hused : (action (evaluate rounds (depth + 1)) scope .use [argument]).run world =
      (display (.number points) >>= fun shown =>
        say ("Você usou uma potion. Vida agora = " ++ shown)).run { world with forest := later } :=
    (run_useAction_potion hitem scope world).trans (run_usePotion hhealth hheal hmost)
  rw [run_report_number] at hused
  by_cases hsmall : points.natAbs < Nat.pow 10 Numeral.digitLimit
  · rw [if_pos hsmall] at hused ⊢
    exact run_bind_ok hused _
  · rw [if_neg hsmall] at hused ⊢
    exact run_bind_error hused _

theorem healed_eq (heal most : Option Int) (health : Int) :
    healed heal most health =
      most.elim (health + heal.getD 50) (min (health + heal.getD 50)) := by
  cases most with
  | none => exact Int.min_self _
  | some most => rfl

/-- A potion that is used, under its name or as a text, adds what is set for its effect, or 50, to
the health, at most up to the greatest health if that is set. It takes the first potion out of the
inventory and changes no other variable. The health after it is told in one line, if it has at most
4300 digits, and is not above the greatest one. -/
theorem potion_used (rounds depth id : Nat) (argument : Node) (scope body : ScopeId)
    (heal most : Option Int) (health : Int) (world : World)
    (hitem : argument.item? = some "potion")
    (hhealth : world.forest.Holds scope "health" body .number (.number health))
    (hheal : world.forest.Sets scope "potion_heal" heal)
    (hmost : world.forest.Sets scope "max_health" most) :
    let total := health + heal.getD 50
    let points := most.elim total (min total)
    ∃ ending last,
      (evaluate rounds (depth + 2) (.action id .use [argument]) scope).run world =
        (ending, last) ∧
      world.forest.Healed scope body points last.forest ∧
      (points.natAbs < Nat.pow 10 Numeral.digitLimit → ending = .ok none ∧
        last.events = world.events.push
          (.line ("Você usou uma potion. Vida agora = " ++ Numeral.decimal points))) ∧
      (Nat.pow 10 Numeral.digitLimit ≤ points.natAbs →
        ending = .error (.fault (.numeral .tooLarge)) ∧ last.events = world.events) ∧
      last.forest.Holds scope "health" body .number (.number points) ∧
      last.forest.Sets scope "max_health" most ∧ ∀ m ∈ most, points ≤ m := by
  intro total points
  have hpoints : healed heal most health = points := healed_eq heal most health
  generalize hwritten : world.forest.write body "health" (.number points) = written
  have hhealed := hwritten ▸ healed_withoutPotion world.forest scope body points
  have hkept : (withoutPotion written scope).Holds scope "health" body .number (.number points) ∧
      (withoutPotion written scope).Sets scope "max_health" most := by
    have hraised := hwritten ▸ hhealth.write (.number points)
    have hlimit := hwritten ▸ hmost.write_of_ne (by decide) body (.number points)
    rcases withoutPotion_cases written scope with ⟨pouch, before, after, _, heq⟩ | heq
    · rw [heq]
      exact ⟨hraised.write_of_ne (by decide) _ _, hlimit.write_of_ne (by decide) _ _⟩
    · rw [heq]
      exact ⟨hraised, hlimit⟩
  have hbound : ∀ m ∈ most, points ≤ m := by
    rintro m ⟨⟩
    exact Int.min_le_right _ _
  have hrun := @run_potion rounds depth id _ _ _ _ _ _ _ hitem hhealth hheal hmost
  dsimp only at hrun
  rw [hpoints, hwritten] at hrun
  by_cases hsmall : points.natAbs < Nat.pow 10 Numeral.digitLimit
  · rw [if_pos hsmall] at hrun
    exact ⟨_, _, hrun, hhealed, fun _ => ⟨rfl, rfl⟩,
      fun hlarge => absurd hsmall (Nat.not_lt.2 hlarge), hkept.1, hkept.2, hbound⟩
  · rw [if_neg hsmall] at hrun
    exact ⟨_, _, hrun, hhealed, fun hless => absurd hless hsmall, fun _ => ⟨rfl, rfl⟩, hkept.1,
      hkept.2, hbound⟩

/-- A potion of 50 in an inner scope with a health of 80, where the greatest health of the scope
around it is 100 and the effect set is a text. -/
theorem shadowed_potion_used :
    let forest : Forest := ⟨#[⟨[], [⟨"inventory", .array,
      .array [.text "key", .text "potion", .text "potion"], 4, false⟩, ⟨"health", .number,
      .number 30, 8, false⟩, ⟨"max_health", .number, .number 100, 12, false⟩], 16⟩,
      ⟨[0], [⟨"health", .number, .number 80, 4, false⟩,
        ⟨"potion_heal", .text, .text "9", 8, false⟩], 12⟩]⟩
    ∃ last, (evaluate 1 9 (.action 2 .use [.text 1 "potion"]) 1).run ⟨forest, #[], .numbered⟩ =
        (.ok none, last) ∧
      last.events = #[.line "Você usou uma potion. Vida agora = 100"] ∧
      last.forest.Holds 1 "health" 1 .number (.number 100) ∧
      last.forest.row? 0 "inventory" =
        some ⟨"inventory", .array, .array [.text "key", .text "potion"], 4, false⟩ ∧
      last.forest.row? 0 "health" = some ⟨"health", .number, .number 30, 8, false⟩ := by
  intro forest
  have hheal : forest.Sets 1 "potion_heal" none := by
    rintro owner row ⟨⟩
    nofun
  obtain ⟨ending, last, hrun, hhealed, htold, _, hhealth, _⟩ :=
    potion_used 1 7 2 (.text 1 "potion") 1 1 none (some 100) 80 ⟨forest, #[], .numbered⟩ rfl
      ⟨_, rfl, rfl, rfl, rfl⟩ hheal ⟨0, _, rfl, rfl, rfl⟩
  obtain ⟨rfl, hevents⟩ := htold (by decide +kernel)
  have hinventory := hhealed.inventory 0 [.text "key"] [.text "potion"] (by simp)
    ⟨_, rfl, rfl, rfl, rfl⟩
  have houter := hhealed.elsewhere 0 "health" (by decide) (by simp)
  exact ⟨last, hrun, hevents, hhealth, hinventory, houter⟩

end Evaluation

end LevelScript

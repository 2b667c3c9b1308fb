import LevelScript.Proofs.Evaluation.Keeping
import LevelScript.Proofs.Scope.Lookup

set_option autoImplicit false

namespace LevelScript

namespace Forest

def Holds (forest : Forest) (scope : ScopeId) (name : String) (owner : ScopeId) (type : TypeName)
    (value : Value) : Prop :=
  ∃ row, forest.resolve scope name = .ok (owner, row) ∧ row.isFunction = false ∧
    row.type = type ∧ row.value = value

def Sets (forest : Forest) (scope : ScopeId) (name : String) : Option Int → Prop
  | some n => ∃ owner row, forest.resolve scope name = .ok (owner, row) ∧ row.type = .number ∧
      row.value = .number n
  | none => ∀ owner row, forest.resolve scope name = .ok (owner, row) → row.type ≠ .number

variable {forest : Forest} {scope owner : ScopeId} {name : String} {type : TypeName} {value : Value}

theorem Holds.assign (h : forest.Holds scope name owner type value) (new : Value) :
    forest.assign scope name type new = .ok (forest.write owner name new) := by
  obtain ⟨row, hresolve, hvariable, htype, _⟩ := h
  rw [Forest.assign, (forest.target_iff scope owner name type).2 ⟨row, hresolve, hvariable, htype⟩]
  rfl

theorem exists_holds_of_assign {new : Value} {changed : Forest}
    (h : forest.assign scope name type new = .ok changed) :
    ∃ owner value, forest.Holds scope name owner type value := by
  obtain ⟨owner, howner, _⟩ := assign_eq h
  obtain ⟨row, hresolve, hvariable, htype⟩ := (forest.target_iff ..).1 howner
  exact ⟨owner, row.value, row, hresolve, hvariable, htype, rfl⟩

theorem Holds.write (h : forest.Holds scope name owner type value) (new : Value) :
    (forest.write owner name new).Holds scope name owner type new := by
  obtain ⟨row, hresolve, hvariable, htype, _⟩ := h
  refine ⟨{ row with value := new }, ?_, hvariable, htype, rfl⟩
  rw [resolve_write, hresolve, Except.map, if_pos ⟨rfl, rfl⟩]

theorem resolve_write_of_ne {other : String} (h : other ≠ name) (forest : Forest)
    (owner scope : ScopeId) (new : Value) :
    (forest.write owner name new).resolve scope other = forest.resolve scope other := by
  rw [resolve_write]
  cases forest.resolve scope other with
  | error cause => rfl
  | ok found => rw [Except.map, if_neg fun hsame => h hsame.2]

theorem Holds.write_of_ne {other : String} (h : forest.Holds scope name owner type value)
    (hne : name ≠ other) (changed : ScopeId) (new : Value) :
    (forest.write changed other new).Holds scope name owner type value := by
  rwa [Holds, resolve_write_of_ne hne]

theorem Holds.inventory? (h : forest.Holds scope "inventory" owner .array value) :
    Evaluation.inventory? forest scope = value.items? := by
  obtain ⟨row, hresolve, _, htype, hvalue⟩ := h
  rw [Evaluation.inventory?, hresolve]
  dsimp only
  rw [if_pos htype, hvalue]

theorem Holds.withInventory? (h : forest.Holds scope "inventory" owner .array value)
    (left : List Value) :
    Evaluation.withInventory? forest scope left =
      some (forest.write owner "inventory" (.array left)) := by
  rw [Evaluation.withInventory?, h.assign]

theorem Sets.write_of_ne {other : String} {set : Option Int} (h : forest.Sets scope name set)
    (hne : name ≠ other) (changed : ScopeId) (new : Value) :
    (forest.write changed other new).Sets scope name set := by
  cases set <;> rwa [Sets, resolve_write_of_ne hne]

theorem Sets.numberOr {set : Option Int} (h : forest.Sets scope name set) (other : Int) :
    Evaluation.numberOr forest scope name (.number other) = .number (set.getD other) := by
  rw [Evaluation.numberOr]
  cases set with
  | some n =>
    obtain ⟨owner, row, hresolve, htype, hvalue⟩ := h
    rw [hresolve, Option.getD_some, ← hvalue]
    exact if_pos htype
  | none =>
    split
    · next owner row hresolve => exact if_neg (h owner row hresolve)
    · rfl

/-- All rows are the same, except those of the inventory and of the health. -/
def SameElsewhere (pouch body : ScopeId) (forest later : Forest) : Prop :=
  ∀ id name, ¬ (id = pouch ∧ name = "inventory") → ¬ (id = body ∧ name = "health") →
    later.row? id name = forest.row? id name

theorem row?_write_of_ne (forest : Forest) {owner id : ScopeId} {name other : String}
    (h : ¬ (id = owner ∧ other = name)) (new : Value) :
    (forest.write owner name new).row? id other = forest.row? id other := by
  rw [row?_write]
  cases forest.row? id other with
  | none => rfl
  | some row => rw [Option.map_some, if_neg fun hsame => h ⟨hsame.1.symm, hsame.2⟩]

theorem row?_write_self (forest : Forest) (owner : ScopeId) (name : String) (new : Value) :
    (forest.write owner name new).row? owner name =
      (forest.row? owner name).map fun row => { row with value := new } := by
  rw [row?_write]
  simp only [and_self, if_true]

namespace SameElsewhere

variable {pouch body : ScopeId} {later last : Forest}

theorem refl (forest : Forest) : SameElsewhere pouch body forest forest :=
  fun _ _ _ _ => rfl

theorem trans (h : SameElsewhere pouch body forest later)
    (h' : SameElsewhere pouch body later last) : SameElsewhere pouch body forest last := by
  intro id name hinventory hhealth
  rw [h' id name hinventory hhealth, h id name hinventory hhealth]

theorem write_inventory (forest : Forest) (value : Value) :
    SameElsewhere pouch body forest (forest.write pouch "inventory" value) :=
  fun _ _ hinventory _ => row?_write_of_ne forest hinventory value

theorem write_health (forest : Forest) (value : Value) :
    SameElsewhere pouch body forest (forest.write body "health" value) :=
  fun _ _ _ hhealth => row?_write_of_ne forest hhealth value

end SameElsewhere

end Forest

/-- What the actions on the inventory find in a scope: a list of items, the health, and what is set
for the effect of a potion and for the greatest health. -/
structure Equipped (forest : Forest) (scope pouch body : ScopeId) (heal most : Option Int)
    (health : Int) (items : List Value) : Prop where
  inventory : forest.Holds scope "inventory" pouch .array (.array items)
  health : forest.Holds scope "health" body .number (.number health)
  heal : forest.Sets scope "potion_heal" heal
  most : forest.Sets scope "max_health" most

namespace Equipped

variable {forest : Forest} {scope pouch body : ScopeId} {heal most : Option Int} {health : Int}
  {items : List Value}

theorem write_inventory (h : Equipped forest scope pouch body heal most health items)
    (left : List Value) :
    Equipped (forest.write pouch "inventory" (.array left)) scope pouch body heal most health
      left where
  inventory := h.inventory.write _
  health := h.health.write_of_ne (by decide) _ _
  heal := h.heal.write_of_ne (by decide) _ _
  most := h.most.write_of_ne (by decide) _ _

theorem write_health (h : Equipped forest scope pouch body heal most health items) (points : Int) :
    Equipped (forest.write body "health" (.number points)) scope pouch body heal most points
      items where
  inventory := h.inventory.write_of_ne (by decide) _ _
  health := h.health.write _
  heal := h.heal.write_of_ne (by decide) _ _
  most := h.most.write_of_ne (by decide) _ _

theorem inventory? (h : Equipped forest scope pouch body heal most health items) :
    Evaluation.inventory? forest scope = some items :=
  h.inventory.inventory?

theorem withInventory? (h : Equipped forest scope pouch body heal most health items)
    (left : List Value) :
    Evaluation.withInventory? forest scope left =
      some (forest.write pouch "inventory" (.array left)) :=
  h.inventory.withInventory? left

end Equipped

def Value.isPotion : Value → Bool
  | .text s => s = "potion"
  | _ => false

theorem Value.same_potion (value : Value) : value.same (.text "potion") = value.isPotion := by
  cases value <;> simp [Value.same, Value.isPotion]

def healed (heal most : Option Int) (health : Int) : Int :=
  let total := health + heal.getD 50
  min total (most.getD total)

namespace Evaluation

variable {scope pouch body : ScopeId} {heal most : Option Int} {health : Int} {items : List Value}
  {world last : World}

def withoutPotion (forest : Forest) (scope : ScopeId) : Forest :=
  ((inventory? forest scope).bind fun items =>
    (withoutPotion? items).bind (withInventory? forest scope)).getD forest

/-- A potion is used in three steps: it raises the health, it leaves the inventory, and the health
is told. -/
theorem run_usePotion (hhealth : world.forest.Holds scope "health" body .number (.number health))
    (hheal : world.forest.Sets scope "potion_heal" heal)
    (hmost : world.forest.Sets scope "max_health" most) :
    (usePotion scope).run world =
      (display (.number (healed heal most health)) >>= fun shown =>
        say ("Você usou uma potion. Vida agora = " ++ shown)).run
        { world with
          forest := withoutPotion
            (world.forest.write body "health" (.number (healed heal most health))) scope } := by
  have hassign := hhealth.assign (.number (healed heal most health))
  obtain ⟨row, hresolve, _, htype, hvalue⟩ := hhealth
  generalize htotal : health + heal.getD 50 = total
  have hadd : Value.arithmetic .add (.number health) (.number (heal.getD 50)) =
      .ok (.number total) := htotal ▸ rfl
  have hless : Value.order .less (.number (most.getD total)) (.number total) =
      .ok (decide (most.getD total < total)) := by
    simp [Value.order, Value.integer?, Order.ofInts, Order.holds]
  have hpoints : (if decide (most.getD total < total) = true then Value.number (most.getD total)
      else .number total) = .number (healed heal most health) := by
    simp only [healed, htotal, decide_eq_true_eq]
    split <;> congr 1 <;> omega
  have hok {α : Type} (fault : ValueFault → Fault) (a : α) (world : World) :
      (ofExcept fault (.ok a)).run world = (.ok a, world) := rfl
  rw [usePotion, run_bind_ok (run_forest world), hresolve]
  dsimp only
  rw [if_neg (not_not_intro htype), run_bind_ok (run_forest world), hvalue, hheal.numberOr, hadd,
    run_bind_ok (hok _ _ world), run_bind_ok (run_forest world), hmost.numberOr, hless,
    run_bind_ok (hok _ _ world), hpoints, run_bind, run_assign, hassign]
  dsimp only
  rw [run_bind_ok (run_forest _), withoutPotion]
  generalize (display (.number (healed heal most health)) >>= fun shown =>
    say ("Você usou uma potion. Vida agora = " ++ shown)) = report
  cases (inventory? (world.forest.write body "health" (.number (healed heal most health)))
      scope).bind fun items => (withoutPotion? items).bind (withInventory? _ scope) <;> rfl

theorem withoutPotion_equipped {forest : Forest}
    (h : Equipped forest scope pouch body heal most health items) :
    Equipped (withoutPotion forest scope) scope pouch body heal most health
        (items.eraseP Value.isPotion) ∧
      Forest.SameElsewhere pouch body forest (withoutPotion forest scope) := by
  rw [withoutPotion, h.inventory?, Option.bind_some, withoutPotion?]
  simp only [Value.same_potion]
  by_cases hany : items.any Value.isPotion = true
  · rw [if_pos hany, Option.bind_some, h.withInventory?, Option.getD_some]
    exact ⟨h.write_inventory _, .write_inventory _ _⟩
  · -- nothing is assigned, and nothing is there to be taken away
    rw [if_neg hany, Option.bind_none, Option.getD_none]
    rw [List.any_eq_true] at hany
    rw [List.eraseP_of_forall_not fun item hitem hpotion => hany ⟨item, hitem, hpotion⟩]
    exact ⟨h, .refl forest⟩

theorem forest_of_run_report {value : Value} {text : String → String}
    (hrun : (display value >>= fun shown => say (text shown)).run world = (.ok (), last)) :
    last.forest = world.forest := by
  have hquiet : Quiet (display value >>= fun shown => say (text shown)) :=
    (looks_display value).quiet.bind fun shown => quiet_emit _
  have hkept := (hquiet (· = world.forest)).run rfl
  rwa [hrun] at hkept

theorem usePotion_equipped (h : Equipped world.forest scope pouch body heal most health items)
    (hrun : (usePotion scope).run world = (.ok (), last)) :
    Equipped last.forest scope pouch body heal most (healed heal most health)
        (items.eraseP Value.isPotion) ∧
      Forest.SameElsewhere pouch body world.forest last.forest := by
  rw [run_usePotion h.health h.heal h.most] at hrun
  rw [forest_of_run_report hrun]
  obtain ⟨hleft, hsame⟩ := withoutPotion_equipped (h.write_health (healed heal most health))
  exact ⟨hleft, .trans (.write_health _ _) hsame⟩

end Evaluation

inductive Deed where
  | gather (item : String)
  | use (item : String)
  deriving DecidableEq, Repr

/-- The item that an argument of an action stands for: a name stands for itself. -/
def Node.item? : Node → Option String
  | .identifier _ name => some name
  | .text _ value => some value
  | _ => none

def Node.deed? : Node → Option Deed
  | .action _ .gather [argument] => argument.item?.map .gather
  | .action _ .use [argument] => argument.item?.map .use
  | _ => none

theorem Node.isBlock_of_deed {node : Node} {deed : Deed} (h : node.deed? = some deed) :
    node.isBlock = false := by
  cases node with
  | action => rfl
  | _ => cases h

namespace Deed

def apply (items : List Value) : Deed → List Value
  | .gather item => items ++ [.text item]
  | .use item => if item = "potion" then items.eraseP Value.isPotion else items

def potions (count : Nat) : Deed → Nat
  | .gather item => if item = "potion" then count + 1 else count
  | .use item => if item = "potion" then count - 1 else count

def gathered? : Deed → Option Value
  | .gather item => if item = "potion" then none else some (.text item)
  | .use _ => none

theorem filter_eraseP (items : List Value) :
    (items.eraseP Value.isPotion).filter (!·.isPotion) = items.filter (!·.isPotion) := by
  induction items with
  | nil => rfl
  | cons item items ih =>
    by_cases hpotion : item.isPotion = true
    · simp [hpotion]
    · simp [hpotion, ih]

theorem countP_eraseP (items : List Value) :
    (items.eraseP Value.isPotion).countP Value.isPotion = items.countP Value.isPotion - 1 := by
  induction items with
  | nil => rfl
  | cons item items ih =>
    by_cases hpotion : item.isPotion = true
    · simp [hpotion]
    · simp [hpotion, ih]

theorem filter_apply (items : List Value) (deed : Deed) :
    (deed.apply items).filter (!·.isPotion) =
      items.filter (!·.isPotion) ++ deed.gathered?.toList := by
  cases deed with
  | gather item =>
    rw [apply, List.filter_append, gathered?]
    by_cases hpotion : item = "potion" <;> simp [Value.isPotion, hpotion]
  | use item =>
    rw [apply, gathered?, Option.toList_none, List.append_nil]
    split
    · exact filter_eraseP items
    · rfl

theorem countP_apply (items : List Value) (deed : Deed) :
    (deed.apply items).countP Value.isPotion = deed.potions (items.countP Value.isPotion) := by
  cases deed with
  | gather item =>
    rw [apply, List.countP_append, potions]
    by_cases hpotion : item = "potion" <;> simp [Value.isPotion, hpotion]
  | use item =>
    rw [apply, potions]
    split
    · exact countP_eraseP items
    · rfl

theorem filter_foldl_apply (deeds : List Deed) (items : List Value) :
    (deeds.foldl apply items).filter (!·.isPotion) =
      items.filter (!·.isPotion) ++ deeds.filterMap gathered? := by
  induction deeds generalizing items with
  | nil => exact (List.append_nil _).symm
  | cons deed deeds ih =>
    rw [List.foldl_cons, ih, filter_apply, List.append_assoc, List.filterMap_cons]
    cases deed.gathered? <;> rfl

theorem countP_foldl_apply (deeds : List Deed) (items : List Value) :
    (deeds.foldl apply items).countP Value.isPotion =
      deeds.foldl potions (items.countP Value.isPotion) := by
  induction deeds generalizing items with
  | nil => rfl
  | cons deed deeds ih => rw [List.foldl_cons, List.foldl_cons, ih, countP_apply]

end Deed

namespace Evaluation

variable {scope pouch body : ScopeId} {heal most : Option Int} {health : Int} {items : List Value}
  {world last : World} {eval : Evaluator}

theorem gatheredItem_item {rounds depth : Nat} {argument : Node} {item : String} {value : Value}
    {between : World} (hitem : argument.item? = some item)
    (hrun : (gatheredItem (evaluate rounds depth) scope argument).run world =
      (.ok value, between)) : value = .text item ∧ between = world := by
  cases argument with
  | identifier id name =>
    cases hitem
    cases hrun
    exact ⟨rfl, rfl⟩
  | text id text =>
    cases hitem
    cases depth with
    | zero => cases hrun
    | succ depth =>
      cases hrun
      exact ⟨rfl, rfl⟩
  | _ => cases hitem

theorem gatherAction_equipped {rounds depth : Nat} {argument : Node} {item : String}
    (hitem : argument.item? = some item)
    (h : Equipped world.forest scope pouch body heal most health items)
    (hrun : (gatherAction (evaluate rounds depth) scope [argument]).run world = (.ok (), last)) :
    Equipped last.forest scope pouch body heal most health (items ++ [.text item]) ∧
      Forest.SameElsewhere pouch body world.forest last.forest := by
  obtain ⟨value, between, hvalue, hrest⟩ := exists_of_run_bind_ok hrun
  obtain ⟨rfl, rfl⟩ := gatheredItem_item hitem hvalue
  rw [run_bind_ok (run_forest _), h.inventory?, Option.bind_some, h.withInventory?] at hrest
  obtain ⟨_, written, hwritten, hreport⟩ := exists_of_run_bind_ok hrest
  cases hwritten
  rw [forest_of_run_report hreport]
  exact ⟨h.write_inventory _, .write_inventory _ _⟩

theorem run_useAction {rounds depth : Nat} {argument : Node} {item : String}
    (hitem : argument.item? = some item)
    (hrun : (useAction (evaluate rounds depth) scope [argument]).run world = (.ok (), last)) :
    (if item = "potion" then usePotion scope else say ("Usando " ++ item)).run world =
      (.ok (), last) := by
  cases argument with
  | identifier id name =>
    cases hitem
    exact hrun
  | text id text =>
    cases hitem
    cases depth with
    | zero => cases hrun
    | succ depth => exact hrun
  | _ => cases hitem

theorem useAction_equipped {rounds depth : Nat} {argument : Node} {item : String}
    (hitem : argument.item? = some item)
    (h : Equipped world.forest scope pouch body heal most health items)
    (hrun : (useAction (evaluate rounds depth) scope [argument]).run world = (.ok (), last)) :
    ∃ points, Equipped last.forest scope pouch body heal most points
        ((Deed.use item).apply items) ∧
      Forest.SameElsewhere pouch body world.forest last.forest := by
  have hused := run_useAction hitem hrun
  rw [Deed.apply]
  split at hused
  · next hpotion =>
    rw [if_pos hpotion]
    exact ⟨_, usePotion_equipped h hused⟩
  · next hother =>
    rw [if_neg hother]
    cases hused
    exact ⟨health, h, .refl _⟩

theorem evaluate_deed {rounds depth : Nat} {node : Node} {deed : Deed} {result : Option Operand}
    (hdeed : node.deed? = some deed)
    (h : Equipped world.forest scope pouch body heal most health items)
    (hrun : (evaluate rounds depth node scope).run world = (.ok result, last)) :
    ∃ points, Equipped last.forest scope pouch body heal most points (deed.apply items) ∧
      Forest.SameElsewhere pouch body world.forest last.forest := by
  cases depth with
  | zero => cases hrun
  | succ depth =>
    rw [Node.deed?.eq_def] at hdeed
    split at hdeed
    · next id argument =>
      obtain ⟨item, hitem, rfl⟩ := Option.map_eq_some_iff.1 hdeed
      obtain ⟨_, between, hgathered, hend⟩ := exists_of_run_bind_ok hrun
      cases hend
      exact ⟨health, gatherAction_equipped hitem h hgathered⟩
    · next id argument =>
      obtain ⟨item, hitem, rfl⟩ := Option.map_eq_some_iff.1 hdeed
      obtain ⟨_, between, hused, hend⟩ := exists_of_run_bind_ok hrun
      cases hend
      exact useAction_equipped hitem h hused
    · cases hdeed

theorem commands_deeds {rounds depth : Nat} {nodes : List Node} {deeds : List Deed}
    (hdeeds : List.Forall₂ (fun node deed => node.deed? = some deed) nodes deeds)
    (h : Equipped world.forest scope pouch body heal most health items)
    (hrun : (commands (evaluate rounds depth) scope nodes).run world = (.ok (), last)) :
    ∃ points, Equipped last.forest scope pouch body heal most points
        (deeds.foldl Deed.apply items) ∧
      Forest.SameElsewhere pouch body world.forest last.forest := by
  induction hdeeds generalizing world health items with
  | nil =>
    cases hrun
    exact ⟨health, h, .refl _⟩
  | cons hdeed hdeeds ih =>
    -- the health after the first deed is not the one before it, so both vary in the induction
    rw [commands, Node.isBlock_of_deed hdeed] at hrun
    obtain ⟨result, between, hfirst, hrest⟩ := exists_of_run_bind_ok hrun
    obtain ⟨points, hequipped, hsame⟩ := evaluate_deed hdeed h hfirst
    obtain ⟨later, hlater, hsame'⟩ := ih hequipped hrest
    exact ⟨later, hlater, hsame.trans hsame'⟩

/-- After any sequence of deeds that stops nowhere, the items that are not potions are those from
before and those gathered, in this order. The potions are counted up at each one gathered, and down
at each one used while there are any. No variable but the inventory and the health has changed. -/
theorem inventory_conserved {rounds depth : Nat} {nodes : List Node} {deeds : List Deed}
    (hdeeds : List.Forall₂ (fun node deed => node.deed? = some deed) nodes deeds)
    (h : Equipped world.forest scope pouch body heal most health items)
    (hrun : (commands (evaluate rounds depth) scope nodes).run world = (.ok (), last)) :
    ∃ points left, Equipped last.forest scope pouch body heal most points left ∧
      left.filter (!·.isPotion) =
        items.filter (!·.isPotion) ++ deeds.filterMap Deed.gathered? ∧
      left.countP Value.isPotion = deeds.foldl Deed.potions (items.countP Value.isPotion) ∧
      ∀ id name, ¬ (id = pouch ∧ name = "inventory") → ¬ (id = body ∧ name = "health") →
        last.forest.row? id name = world.forest.row? id name := by
  obtain ⟨points, hequipped, hsame⟩ := commands_deeds hdeeds h hrun
  exact ⟨points, _, hequipped, Deed.filter_foldl_apply deeds items,
    Deed.countP_foldl_apply deeds items, hsame⟩

/-- Two potions and a key, of which the potions are used up while a sword is gathered. -/
theorem potions_used_up :
    let forest : Forest := ⟨#[⟨[], [⟨"inventory", .array,
      .array [.text "potion", .text "key", .text "potion"], 4, false⟩, ⟨"health", .number,
      .number 10, 8, false⟩, ⟨"max_health", .number, .number 100, 12, false⟩], 16⟩,
      ⟨[0], [], 4⟩]⟩
    let nodes : List Node := [.action 1 .use [.identifier 2 "potion"],
      .action 3 .gather [.identifier 4 "sword"], .action 5 .use [.text 6 "potion"],
      .action 7 .use [.text 8 "potion"]]
    ∃ last points left,
      (commands (evaluate 1 9) 1 nodes).run ⟨forest, #[], .numbered⟩ = (.ok (), last) ∧
      Equipped last.forest 1 0 0 none (some 100) points left ∧
      left.filter (!·.isPotion) = [.text "key", .text "sword"] ∧
      left.countP Value.isPotion = 0 ∧
      last.forest.row? 0 "max_health" = forest.row? 0 "max_health" := by
  intro forest nodes
  have hunset : forest.Sets 1 "potion_heal" none := by
    intro owner row hfound
    cases hfound
  have hequipped : Equipped forest 1 0 0 none (some 100) 10
      [.text "potion", .text "key", .text "potion"] :=
    ⟨⟨_, rfl, rfl, rfl, rfl⟩, ⟨_, rfl, rfl, rfl, rfl⟩, hunset, ⟨0, _, rfl, rfl, rfl⟩⟩
  have hdeeds : List.Forall₂ (fun node deed => node.deed? = some deed) nodes
      [.use "potion", .gather "sword", .use "potion", .use "potion"] :=
    .cons rfl (.cons rfl (.cons rfl (.cons rfl .nil)))
  have hok : ((commands (evaluate 1 9) 1 nodes).run ⟨forest, #[], .numbered⟩).1.isOk = true := by
    decide +kernel
  cases hrun : (commands (evaluate 1 9) 1 nodes).run ⟨forest, #[], .numbered⟩ with
  | mk ending last =>
    rw [hrun] at hok
    cases ending with
    | error reason => cases hok
    | ok result =>
      obtain ⟨points, left, hleft, hothers, hpotions, hsame⟩ :=
        inventory_conserved hdeeds hequipped hrun
      exact ⟨last, points, left, rfl, hleft, hothers, hpotions,
        hsame 0 "max_health" (by decide) (by decide)⟩

end Evaluation

end LevelScript

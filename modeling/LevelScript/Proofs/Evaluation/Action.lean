import LevelScript.Proofs.Evaluation.Soundness

set_option autoImplicit false

namespace LevelScript.Evaluation

variable {functions : Bool} {α : Type} {forest : Forest} {eval : Evaluator} {scope : ScopeId}

/-- A result that fits. An expression has one. -/
def Good (functions : Bool) (role : Role) (result : Option Operand) (forest : Forest) : Prop :=
  (role = .expression → result.isSome = true) ∧ ∀ operand ∈ result, operand.Fits functions forest

/-- An evaluator that is sound on the nodes of sources. -/
def SoundOn (functions : Bool) (eval : Evaluator) : Prop :=
  ∀ (role : Role) (node : Node) (scope : ScopeId) (forest : Forest), Sourced functions role node →
    forest.Typed functions → Sound functions (Good functions role) (eval node scope) forest

theorem SoundOn.expression {good : α → Forest → Prop} {node : Node}
    {f : Option Operand → Evaluation α} (he : SoundOn functions eval)
    (hnode : Sourced functions .expression node) (h : forest.Typed functions)
    (hf : ∀ operand later, forest.Extends later → later.Typed functions →
      operand.Fits functions later → Sound functions good (f (some operand)) later) :
    Sound functions good (eval node scope >>= f) forest := by
  refine (he .expression node scope forest hnode h).bind fun result later hlater h hresult => ?_
  obtain ⟨operand, rfl⟩ := Option.isSome_iff_exists.1 (hresult.1 rfl)
  exact hf operand later hlater h (hresult.2 operand rfl)

theorem SoundOn.command {good : α → Forest → Prop} {node : Node} {f : Option Operand → Evaluation α}
    (he : SoundOn functions eval) (hnode : Sourced functions .command node)
    (h : forest.Typed functions)
    (hf : ∀ result later, later.Typed functions → Sound functions good (f result) later) :
    Sound functions good (eval node scope >>= f) forest :=
  (he .command node scope forest hnode h).bind fun result later _ h _ => hf result later h

section Actions

variable {arguments : List Node}

theorem sayAction_sound (he : SoundOn functions eval)
    (ha : ∀ node ∈ arguments, Sourced functions .expression node) (h : forest.Typed functions) :
    Sound functions (fun _ _ => True) (sayAction eval scope arguments) forest := by
  unfold sayAction
  split
  · refine he.expression (List.forall_mem_singleton.1 ha) h fun operand later _ h hoperand => ?_
    refine (read_steady h operand).bind ?_
    rintro _ rfl
    refine (display_steady h (hoperand.value h).allowed).bind fun shown _ => ?_
    exact (say_steady h shown).sound
  · exact sound_raise h (Fault.harmless_action _)

theorem waitFor_sound {duration : Value} (h : forest.Typed functions)
    (hduration : duration.Fits functions .number) :
    Sound functions (fun _ _ => True) (waitFor duration) forest := by
  cases hduration with
  | number =>
    rw [waitFor]
    split
    · exact sound_raise h (Fault.harmless_wait _)
    split
    · exact sound_raise h (Fault.harmless_wait _)
    · exact (emit_steady h _).sound
  | void _ htype => exact absurd htype (by decide)
  | function hf => exact sound_raise h (Fault.harmless_of_functions hf rfl)

theorem waitAction_sound (he : SoundOn functions eval)
    (ha : ∀ node ∈ arguments, Sourced functions .expression node) (h : forest.Typed functions) :
    Sound functions (fun _ _ => True) (waitAction eval scope arguments) forest := by
  unfold waitAction
  split
  · refine he.expression (List.forall_mem_singleton.1 ha) h fun operand later _ h hoperand => ?_
    refine sound_unless h (Fault.harmless_action _) fun htype => ?_
    refine (read_steady h operand).bind ?_
    rintro _ rfl
    exact waitFor_sound h (not_not.1 htype ▸ hoperand.value h)
  · exact sound_raise h (Fault.harmless_action _)

theorem moveAction_sound (he : SoundOn functions eval)
    (ha : ∀ node ∈ arguments, Sourced functions .expression node) (h : forest.Typed functions) :
    Sound functions (fun _ _ => True) (moveAction eval scope arguments) forest := by
  unfold moveAction
  split
  · refine he.expression (List.forall_mem_singleton.1 ha) h fun operand later _ h hoperand => ?_
    refine sound_unless h (Fault.harmless_action _) fun _ => ?_
    refine (read_steady h operand).bind ?_
    rintro _ rfl
    refine (display_steady h (hoperand.value h).allowed).bind fun shown _ => ?_
    exact (say_steady h _).sound
  · exact sound_raise h (Fault.harmless_action _)

theorem strike_sound {name : String} {target loss : Value} {lead : Evaluation String}
    (h : forest.Typed functions) (ht : target.Fits functions .number)
    (hl : loss.Fits functions .number)
    (hlead : ∀ later, forest.Extends later → later.Typed functions →
      Steady functions (fun _ => True) lead later) :
    Sound functions (fun _ _ => True) (ofExcept .value (Value.arithmetic .subtract target loss) >>=
      fun points => strike scope name points lead) forest := by
  have hdivisor (h : Arithmetic.subtract = .divide) : loss.same (.number 0) = false := nomatch h
  refine (ofExcept_steady h (Value.harmless_arithmetic ht hl hdivisor)).bind
    fun points hpoints => ?_
  obtain ⟨n, rfl⟩ := Value.arithmetic_number ht hl hpoints
  refine (assign_sound h scope name .number).bind fun _ later hlater h _ => ?_
  refine (hlead later hlater h).bind fun lead _ => ?_
  refine (display_steady h .number).bind fun shown _ => ?_
  refine (say_steady h _).bind fun _ _ => ?_
  refine (ofExcept_steady h (Value.harmless_order .atMost .number .number)).bind
    fun beaten _ => ?_
  split
  · exact (say_steady h _).sound
  · exact sound_pure h trivial

theorem attackAction_sound (he : SoundOn functions eval)
    (ha : ∀ node ∈ arguments, Sourced functions .expression node) (h : forest.Typed functions) :
    Sound functions (fun _ _ => True) (attackAction eval scope arguments) forest := by
  have hone : (Value.number 1).Fits functions .number := .number
  unfold attackAction
  split
  · refine (forest_steady h).bind ?_
    rintro forest rfl
    split
    · exact sound_raise h (Fault.harmless_action _)
    · next owner enemy hfound =>
      refine sound_unless h (Fault.harmless_action _) fun htype => ?_
      have hpoints := (h.row? (Forest.resolve_row? hfound)).fits
      rw [not_not.1 htype] at hpoints
      exact strike_sound h hpoints hone fun later _ h => sound_pure h ⟨rfl, trivial⟩
  · refine he.expression (List.forall_mem_singleton.1 ha) h fun target later _ h htarget => ?_
    refine sound_unless h (Fault.harmless_action _) fun htype => ?_
    refine (read_steady h target).bind ?_
    rintro _ rfl
    exact strike_sound h (not_not.1 htype ▸ htarget.value h) hone
      fun later _ h => sound_pure h ⟨rfl, trivial⟩
  · exact sound_raise h (Fault.harmless_action _)
  · have hsourced := List.forall_mem_cons.1 ha
    refine he.expression hsourced.1 h fun target later _ h htarget => ?_
    refine he.expression (List.forall_mem_singleton.1 hsourced.2) h
      fun damage later hlater h hdamage => ?_
    refine sound_unless h (Fault.harmless_action _) fun htype => ?_
    refine sound_unless h (Fault.harmless_action _) fun hnumber => ?_
    refine (read_steady h target).bind ?_
    rintro _ rfl
    refine (read_steady h damage).bind ?_
    rintro _ rfl
    refine strike_sound h (not_not.1 htype ▸ (htarget.extend hlater).value h)
      (not_not.1 hnumber ▸ hdamage.value h) fun later hlater h => ?_
    -- the damage is read once more, after the change
    refine (read_steady h damage).bind ?_
    rintro _ rfl
    refine (display_steady h ((hdamage.extend hlater).value h).allowed).bind fun shown _ => ?_
    exact sound_pure h ⟨rfl, trivial⟩
  · exact sound_raise h (Fault.harmless_action _)
  · exact sound_raise h (Fault.harmless_action _)

theorem inventory?_allowed {items : List Value} (h : forest.Typed functions)
    (hitems : inventory? forest scope = some items) : ∀ item ∈ items, item.Allowed functions := by
  rw [inventory?] at hitems
  split at hitems
  · next owner row hfound =>
    split at hitems
    · next htype =>
      have hfits := (h.row? (Forest.resolve_row? hfound)).fits
      rw [htype] at hfits
      generalize row.value = value at hitems hfits
      cases hfits with
      | array hallowed =>
        cases hitems
        exact hallowed
      | void _ hvoid => exact absurd hvoid (by decide)
      | function => cases hitems
    · cases hitems
  · cases hitems

theorem withInventory?_typed {items : List Value} {changed : Forest} (h : forest.Typed functions)
    (hitems : ∀ item ∈ items, item.Allowed functions)
    (hchanged : withInventory? forest scope items = some changed) :
    changed.Typed functions ∧ forest.Extends changed := by
  rw [withInventory?] at hchanged
  split at hchanged
  · next after hassign =>
    cases hchanged
    obtain ⟨owner, howner, rfl⟩ := Forest.assign_eq hassign
    exact ⟨h.write howner (.array hitems), Forest.extends_write _ owner _ _⟩
  · cases hchanged

theorem restock_sound {items : List Value} {changed : Forest} (h : forest.Typed functions)
    (hitems : ∀ item ∈ items, item.Allowed functions)
    (hchanged : withInventory? forest scope items = some changed) :
    Sound functions (fun _ _ => True) (change fun world => { world with forest := changed })
      forest := by
  obtain ⟨htyped, hextends⟩ := withInventory?_typed h hitems hchanged
  exact (sound_change (fun _ => changed) (fun _ => rfl) (fun _ _ => rfl) h htyped hextends).mono
    fun _ _ _ => trivial

theorem report_sound {value : Value} (h : forest.Typed functions) (hvalue : value.Allowed functions)
    (text : String → String) :
    Sound functions (fun _ _ => True) (display value >>= fun shown => say (text shown)) forest :=
  (display_steady h hvalue).bind fun _ _ => (say_steady h _).sound

theorem gatheredItem_sound {argument : Node} (he : SoundOn functions eval)
    (ha : Sourced functions .expression argument) (h : forest.Typed functions) :
    Sound functions (fun item _ => item.Fits functions .text) (gatheredItem eval scope argument)
      forest := by
  unfold gatheredItem
  split
  · exact sound_pure h .text
  · refine he.expression ha h fun operand later _ h hoperand => ?_
    change Sound functions _ (if operand.type = .text then read operand else _) later
    split
    · next htype =>
      refine (read_steady h operand).mono ?_
      rintro _ _ ⟨_, rfl⟩
      exact htype ▸ hoperand.value h
    · refine (read_steady h operand).bind ?_
      rintro _ rfl
      refine (display_steady h (hoperand.value h).allowed).bind fun shown _ => ?_
      exact sound_pure h .text

theorem gatherAction_sound (he : SoundOn functions eval)
    (ha : ∀ node ∈ arguments, Sourced functions .expression node) (h : forest.Typed functions) :
    Sound functions (fun _ _ => True) (gatherAction eval scope arguments) forest := by
  unfold gatherAction
  split
  · refine (gatheredItem_sound he (List.forall_mem_singleton.1 ha) h).bind
      fun item later _ h hitem => ?_
    refine (forest_steady h).bind ?_
    rintro forest rfl
    split
    · next changed hchanged =>
      obtain ⟨items, hitems, hchanged⟩ := Option.bind_eq_some_iff.1 hchanged
      have hall : ∀ other ∈ items ++ [item], other.Allowed functions :=
        List.forall_mem_append.2
          ⟨inventory?_allowed h hitems, List.forall_mem_singleton.2 hitem.allowed⟩
      refine (restock_sound h hall hchanged).bind fun _ later _ h _ => ?_
      exact report_sound h hitem.allowed fun shown =>
        "Item '" ++ shown ++ "' adicionado ao inventory"
    · exact report_sound h hitem.allowed fun shown => "Item coletado: " ++ shown
  · exact sound_raise h (Fault.harmless_action _)

theorem numberOr_fits (h : forest.Typed functions) (name : String) {other : Value}
    (hother : other.Fits functions .number) :
    (numberOr forest scope name other).Fits functions .number := by
  rw [numberOr]
  split
  · next owner row hfound =>
    split
    · next htype => exact htype ▸ (h.row? (Forest.resolve_row? hfound)).fits
    · exact hother
  · exact hother

theorem withoutPotion?_allowed {items left : List Value}
    (hitems : ∀ item ∈ items, item.Allowed functions) (h : withoutPotion? items = some left) :
    ∀ item ∈ left, item.Allowed functions := by
  rw [withoutPotion?] at h
  split at h
  · cases h
    exact fun item hitem => hitems item (List.mem_of_mem_eraseP hitem)
  · cases h

theorem usePotion_sound (h : forest.Typed functions) :
    Sound functions (fun _ _ => True) (usePotion scope) forest := by
  refine (forest_steady h).bind ?_
  rintro forest rfl
  split
  · exact sound_raise h (Fault.harmless_action _)
  · next owner health hfound =>
    refine sound_unless h (Fault.harmless_action _) fun htype => ?_
    have hhealth := (h.row? (Forest.resolve_row? hfound)).fits
    rw [not_not.1 htype] at hhealth
    refine (forest_steady h).bind ?_
    rintro forest rfl
    have hheal : (numberOr forest scope "potion_heal" (.number 50)).Fits functions .number :=
      numberOr_fits h "potion_heal" .number
    have hdivisor (h : Arithmetic.add = .divide) :
        (numberOr forest scope "potion_heal" (.number 50)).same (.number 0) = false := nomatch h
    refine (ofExcept_steady h (Value.harmless_arithmetic hhealth hheal hdivisor)).bind
      fun total htotal => ?_
    obtain ⟨n, rfl⟩ := Value.arithmetic_number hhealth hheal htotal
    refine (forest_steady h).bind ?_
    rintro forest rfl
    have hmost : (numberOr forest scope "max_health" (.number n)).Fits functions .number :=
      numberOr_fits h "max_health" .number
    refine (ofExcept_steady h (Value.harmless_order .less hmost .number)).bind fun above _ => ?_
    have hpoints : (if above = true then numberOr forest scope "max_health" (.number n)
        else .number n).Fits functions .number := by
      split
      · exact hmost
      · exact .number
    refine (assign_sound h scope "health" hpoints).bind fun _ later _ h _ => ?_
    refine (forest_steady h).bind ?_
    rintro forest rfl
    dsimp only
    split
    · next changed hchanged =>
      obtain ⟨items, hitems, hchanged⟩ := Option.bind_eq_some_iff.1 hchanged
      obtain ⟨left, hleft, hchanged⟩ := Option.bind_eq_some_iff.1 hchanged
      have hall := withoutPotion?_allowed (inventory?_allowed h hitems) hleft
      refine (restock_sound h hall hchanged).bind fun _ later _ h _ => ?_
      exact report_sound h hpoints.allowed fun shown =>
        "Você usou uma potion. Vida agora = " ++ shown
    · exact report_sound h hpoints.allowed fun shown =>
        "Você usou uma potion. Vida agora = " ++ shown

theorem useAction_sound (he : SoundOn functions eval)
    (ha : ∀ node ∈ arguments, Sourced functions .expression node) (h : forest.Typed functions) :
    Sound functions (fun _ _ => True) (useAction eval scope arguments) forest := by
  unfold useAction
  split
  · have hused {item : Value} {later : Forest} (hitem : item.Allowed functions)
        (h : later.Typed functions) :
        Sound functions (fun _ _ => True) (do
          let shown ← display item
          if shown = "potion" then usePotion scope else say ("Usando " ++ shown)) later := by
      refine (display_steady h hitem).bind fun shown _ => ?_
      split
      · exact usePotion_sound h
      · exact (say_steady h _).sound
    dsimp only
    split
    · exact hused .text h
    · refine he.expression (List.forall_mem_singleton.1 ha) h fun operand later _ h hoperand => ?_
      refine (read_steady h operand).bind ?_
      rintro _ rfl
      exact hused (hoperand.value h).allowed h
  · exact sound_raise h (Fault.harmless_action _)

theorem action_sound {word : Keyword} (he : SoundOn functions eval)
    (hword : word ∈ Keyword.actions)
    (ha : ∀ node ∈ arguments, Sourced functions .expression node) (h : forest.Typed functions) :
    Sound functions (fun _ _ => True) (action eval scope (Token.keyword word).actionName arguments)
      forest := by
  simp only [Keyword.actions, List.mem_cons, List.not_mem_nil, or_false] at hword
  rcases hword with rfl | rfl | rfl | rfl | rfl | rfl
  · exact moveAction_sound he ha h
  · exact attackAction_sound he ha h
  · exact gatherAction_sound he ha h
  · exact useAction_sound he ha h
  · exact sayAction_sound he ha h
  · exact waitAction_sound he ha h

end Actions

end LevelScript.Evaluation

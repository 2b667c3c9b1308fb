import LevelScript.Evaluation.Node

set_option autoImplicit false

namespace LevelScript.Evaluation

variable {α β : Type} {always : World → Prop} {halt : Stop → World → Prop}

/-- From `world` on, each world of the evaluation is one that `always` allows; a result is in `ok`
and a stop in `halt`, with the world that is left. -/
def Meets (always : World → Prop) (ok : α → World → Prop) (halt : Stop → World → Prop) :
    Evaluation α → World → Prop
  | .done result, world => always world ∧ ok result world
  | .stopped reason, world => always world ∧ halt reason world
  | .act update next, world =>
    always world ∧ (next (update world)).Meets always ok halt (update world)

theorem Meets.now {ok : α → World → Prop} {x : Evaluation α} {world : World}
    (h : x.Meets always ok halt world) : always world := by
  cases x <;> exact h.1

theorem Meets.moments {ok : α → World → Prop} {x : Evaluation α} {world : World}
    (h : x.Meets always ok halt world) : ∀ moment ∈ x.moments world, always moment := by
  induction x generalizing world with
  | done result => exact List.forall_mem_singleton.2 h.1
  | stopped reason => exact List.forall_mem_singleton.2 h.1
  | act update next ih => exact List.forall_mem_cons.2 ⟨h.1, ih _ h.2⟩

theorem Meets.mono {always' : World → Prop} {ok ok' : α → World → Prop}
    {halt' : Stop → World → Prop} {x : Evaluation α} {world : World}
    (h : x.Meets always ok halt world) (halways : ∀ w, always w → always' w)
    (hok : ∀ a w, always w → ok a w → ok' a w)
    (hhalt : ∀ r w, always w → halt r w → halt' r w) : x.Meets always' ok' halt' world := by
  induction x generalizing world with
  | done result => exact ⟨halways _ h.1, hok _ _ h.1 h.2⟩
  | stopped reason => exact ⟨halways _ h.1, hhalt _ _ h.1 h.2⟩
  | act update next ih => exact ⟨halways _ h.1, ih _ h.2⟩

theorem meets_bind {ok : β → World → Prop} {x : Evaluation α} {f : α → Evaluation β}
    {world : World} :
    (x >>= f).Meets always ok halt world ↔
      x.Meets always (fun a w => (f a).Meets always ok halt w) halt world := by
  change (x.bind f).Meets always ok halt world ↔ _
  induction x generalizing world with
  | done result => exact ⟨fun h => ⟨h.now, h⟩, fun h => h.2⟩
  | stopped reason => exact Iff.rfl
  | act update next ih => exact and_congr_right fun _ => ih _

theorem meets_recover {ok : α → World → Prop} {handle : Stop → Evaluation α}
    {x : Evaluation α} {world : World} :
    (x.recover handle).Meets always ok halt world ↔
      x.Meets always ok (fun r w => (handle r).Meets always ok halt w) world := by
  induction x generalizing world with
  | done result => exact Iff.rfl
  | stopped reason => exact ⟨fun h => ⟨h.now, h⟩, fun h => h.2⟩
  | act update next ih => exact and_congr_right fun _ => ih _

theorem run_mem_moments (x : Evaluation α) (world : World) :
    (x.run world).2 ∈ x.moments world := by
  induction x generalizing world with
  | done result => exact List.mem_singleton.2 rfl
  | stopped reason => exact List.mem_singleton.2 rfl
  | act update next ih => exact List.mem_cons_of_mem _ (ih _ _)

theorem Meets.run {ok : α → World → Prop} {x : Evaluation α} {world last : World} {a : α}
    (h : x.Meets always ok halt world) (hrun : x.run world = (.ok a, last)) :
    always last ∧ ok a last := by
  induction x generalizing world with
  | done result =>
    cases hrun
    exact h
  | stopped reason => cases hrun
  | act update next ih => exact ih _ h.2 hrun

theorem run_bind (x : Evaluation α) (f : α → Evaluation β) (world : World) :
    (x >>= f).run world =
      match x.run world with
      | (.ok a, last) => (f a).run last
      | (.error reason, last) => (.error reason, last) := by
  change (x.bind f).run world = _
  induction x generalizing world with
  | done result => rfl
  | stopped reason => rfl
  | act update next ih => exact ih _ _

theorem run_bind_ok {x : Evaluation α} {world between : World} {a : α}
    (h : x.run world = (.ok a, between)) (f : α → Evaluation β) :
    (x >>= f).run world = (f a).run between := by
  rw [run_bind, h]

theorem run_bind_error {x : Evaluation α} {world last : World} {reason : Stop}
    (h : x.run world = (.error reason, last)) (f : α → Evaluation β) :
    (x >>= f).run world = (.error reason, last) := by
  rw [run_bind, h]

theorem exists_of_run_bind_ok {x : Evaluation α} {f : α → Evaluation β} {world last : World} {b : β}
    (h : (x >>= f).run world = (.ok b, last)) :
    ∃ a between, x.run world = (.ok a, between) ∧ (f a).run between = (.ok b, last) := by
  rw [run_bind] at h
  split at h
  · next a between hx => exact ⟨a, between, hx, h⟩
  · cases h

def Gives (property : α → Prop) (x : Evaluation α) : Prop :=
  ∀ world last a, x.run world = (.ok a, last) → property a

theorem gives_pure {property : α → Prop} {a : α} (h : property a) : Gives property (pure a) := by
  intro world last b hrun
  cases hrun
  exact h

theorem gives_raise {property : α → Prop} (cause : Fault) : Gives property (raise cause) :=
  nofun

theorem Gives.bind {middle : α → Prop} {property : β → Prop} {x : Evaluation α}
    {f : α → Evaluation β} (hx : Gives middle x) (hf : ∀ a, middle a → Gives property (f a)) :
    Gives property (x >>= f) := by
  intro world last b hrun
  obtain ⟨a, between, hfirst, hrest⟩ := exists_of_run_bind_ok hrun
  exact hf a (hx world between a hfirst) between last b hrest

theorem Gives.after {property : β → Prop} (x : Evaluation α) {f : α → Evaluation β}
    (hf : ∀ a, Gives property (f a)) : Gives property (x >>= f) := by
  have hx : Gives (fun _ => True) x := fun _ _ _ _ => trivial
  exact hx.bind fun a _ => hf a

theorem run_bind_stopped {x : Evaluation α} {f : α → Evaluation β} {world last : World}
    {reason : Stop} (h : (x >>= f).run world = (.error reason, last)) :
    x.run world = (.error reason, last) ∨
      ∃ a between, x.run world = (.ok a, between) ∧ (f a).run between = (.error reason, last) := by
  rw [run_bind] at h
  split at h
  · next a between hx => exact .inr ⟨a, between, hx, h⟩
  · next stopped between hx =>
    cases h
    exact .inl hx

theorem run_recover (x : Evaluation α) (handle : Stop → Evaluation α) (world : World) :
    (x.recover handle).run world =
      match x.run world with
      | (.ok a, last) => (.ok a, last)
      | (.error reason, last) => (handle reason).run last := by
  induction x generalizing world with
  | done result => rfl
  | stopped reason => rfl
  | act update next ih => exact ih _ _

theorem run_forest (world : World) : forest.run world = (.ok world.forest, world) :=
  rfl

theorem run_ofExcept {ε α : Type} (fault : ε → Fault) (x : Except ε α) (world : World) :
    (ofExcept fault x).run world =
      match x with
      | .ok a => (.ok a, world)
      | .error cause => (.error (.fault (fault cause)), world) := by
  cases x <;> rfl

theorem run_display (value : Value) (world : World) :
    (display value).run world = (ofExcept .numeral (value.display world.titles)).run world :=
  rfl

theorem run_resolve (scope : ScopeId) (name : String) (world : World) :
    (resolve scope name).run world =
      match world.forest.resolve scope name with
      | .ok found => (.ok found, world)
      | .error cause => (.error (.fault (.scope cause)), world) := by
  simp only [resolve, run_bind, run_forest, run_ofExcept]
  cases world.forest.resolve scope name <;> rfl

theorem run_declare (scope : ScopeId) (name : String) (type : TypeName) (value : Value)
    (isFunction : Bool) (world : World) :
    (declare scope name type value isFunction).run world =
      match world.forest.declare scope name type value isFunction with
      | .ok later => (.ok (), { world with forest := later })
      | .error cause => (.error (.fault (.scope cause)), world) := by
  simp only [declare, Forest.declare, run_bind, run_forest, run_ofExcept]
  cases world.forest.newRow scope name type value isFunction <;> rfl

theorem run_assign (scope : ScopeId) (name : String) (type : TypeName) (value : Value)
    (world : World) :
    (assign scope name type value).run world =
      match world.forest.assign scope name type value with
      | .ok later => (.ok (), { world with forest := later })
      | .error cause => (.error (.fault (.scope cause)), world) := by
  simp only [assign, Forest.assign, run_bind, run_forest, run_ofExcept]
  cases world.forest.target scope name type <;> rfl

end LevelScript.Evaluation

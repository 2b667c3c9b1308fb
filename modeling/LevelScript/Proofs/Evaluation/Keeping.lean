import LevelScript.Proofs.Evaluation.Composition
import LevelScript.Proofs.Evaluation.Logic

set_option autoImplicit false

namespace LevelScript.Evaluation

variable {α β : Type} {inv : Forest → Prop}

/-- From a world with this forest on, the invariant holds. -/
def KeepsFrom (inv : Forest → Prop) (x : Evaluation α) (forest : Forest) : Prop :=
  ∀ world : World, world.forest = forest →
    x.Meets (fun w => inv w.forest) (fun _ _ => True) (fun _ _ => True) world

/-- An evaluation that begins within the invariant stays within it. -/
def Keeps (inv : Forest → Prop) (x : Evaluation α) : Prop :=
  ∀ forest, inv forest → KeepsFrom inv x forest

def Quiet (x : Evaluation α) : Prop :=
  ∀ inv, Keeps inv x

def Still (x : Evaluation α) : Prop :=
  ∀ world, x.Meets (fun w => w = world) (fun _ _ => True) (fun _ _ => True) world

theorem KeepsFrom.mono {inv' : Forest → Prop} {x : Evaluation α} {forest : Forest}
    (h : KeepsFrom inv x forest) (hinv : ∀ later, inv later → inv' later) :
    KeepsFrom inv' x forest :=
  fun world hworld => (h world hworld).mono (fun w hw => hinv w.forest hw) (fun _ _ _ h => h)
    fun _ _ _ h => h

theorem Keeps.bind {x : Evaluation α} {f : α → Evaluation β} (hx : Keeps inv x)
    (hf : ∀ a, Keeps inv (f a)) : Keeps inv (x >>= f) := by
  intro forest h world hworld
  refine meets_bind.2 ((hx forest h world hworld).mono (fun _ h => h) ?_ fun _ _ _ h => h)
  exact fun a w hw _ => hf a w.forest hw w rfl

theorem Quiet.bind {x : Evaluation α} {f : α → Evaluation β} (hx : Quiet x)
    (hf : ∀ a, Quiet (f a)) : Quiet (x >>= f) :=
  fun inv => (hx inv).bind fun a => hf a inv

theorem Keeps.recover {x : Evaluation α} {handle : Stop → Evaluation α} (hx : Keeps inv x)
    (hhandle : ∀ reason, Keeps inv (handle reason)) : Keeps inv (x.recover handle) := by
  intro forest h world hworld
  refine meets_recover.2 ((hx forest h world hworld).mono (fun _ h => h) (fun _ _ _ h => h) ?_)
  exact fun reason w hw _ => hhandle reason w.forest hw w rfl

theorem Keeps.run {x : Evaluation α} {world : World} (h : Keeps inv x) (hworld : inv world.forest) :
    inv (x.run world).2.forest :=
  (h _ hworld world rfl).moments _ (run_mem_moments x world)

theorem Still.quiet {x : Evaluation α} (h : Still x) : Quiet x := by
  rintro inv forest hinv world rfl
  refine (h world).mono ?_ (fun _ _ _ h => h) fun _ _ _ h => h
  rintro w rfl
  exact hinv

theorem Still.bind {x : Evaluation α} {f : α → Evaluation β} (hx : Still x)
    (hf : ∀ a, Still (f a)) : Still (x >>= f) := by
  intro world
  refine meets_bind.2 ((hx world).mono (fun _ h => h) ?_ fun _ _ _ h => h)
  rintro a w rfl _
  exact hf a w

theorem Still.run {x : Evaluation α} (h : Still x) (world : World) : (x.run world).2 = world :=
  (h world).moments _ (run_mem_moments x world)

theorem still_stop (reason : Stop) : Still (stop reason : Evaluation α) :=
  fun _ => ⟨rfl, trivial⟩

theorem quiet_stop (reason : Stop) : Quiet (stop reason : Evaluation α) :=
  (still_stop reason).quiet

theorem Looks.still {x : Evaluation α} (h : x.Looks) : Still x := by
  induction x with
  | done result => exact fun _ => ⟨rfl, trivial⟩
  | stopped reason => exact still_stop reason
  | act update next ih =>
    obtain ⟨rfl, hnext⟩ := h
    exact fun world => ⟨rfl, ih world (hnext world) world⟩

theorem Looks.quiet {x : Evaluation α} (h : x.Looks) : Quiet x :=
  h.still.quiet

theorem composes_still : Composes Still :=
  ⟨Looks.still, Still.bind⟩

theorem composes_keeps (inv : Forest → Prop) : Composes (Keeps inv) :=
  ⟨fun h => h.quiet inv, Keeps.bind⟩

theorem keepsFrom_change {forest : Forest} {update : World → World} (g : Forest → Forest)
    (hupdate : ∀ world, (update world).forest = g world.forest) (h : inv forest)
    (hlater : inv (g forest)) : KeepsFrom inv (change update) forest := by
  rintro world rfl
  rw [← hupdate] at hlater
  exact ⟨h, hlater, trivial⟩

theorem KeepsFrom.bind {forest : Forest} {x : Evaluation α} {f : α → Evaluation β}
    (hx : KeepsFrom inv x forest) (hf : ∀ a, Keeps inv (f a)) : KeepsFrom inv (x >>= f) forest := by
  intro world hworld
  refine meets_bind.2 ((hx world hworld).mono (fun _ h => h) ?_ fun _ _ _ h => h)
  exact fun a w hw _ => hf a w.forest hw w rfl

theorem quiet_emit (event : Event) : Quiet (emit event) :=
  fun _ _ h => keepsFrom_change id (fun _ => rfl) h h

theorem Keeps.returnedBy {body : Evaluation Unit} (h : Keeps inv body) :
    Keeps inv (Evaluation.returnedBy body) := by
  have hended : Keeps inv (body >>= fun _ => (pure none : Evaluation (Option Operand))) :=
    h.bind fun _ => (looks_pure none).quiet inv
  refine Keeps.recover hended fun reason => ?_
  cases reason with
  | returned operand => exact (looks_pure _).quiet inv
  | fault cause => exact quiet_stop _ inv
  | tooDeep => exact quiet_stop _ inv
  | unfinished => exact quiet_stop _ inv

end LevelScript.Evaluation

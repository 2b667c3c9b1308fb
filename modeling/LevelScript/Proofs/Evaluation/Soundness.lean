import LevelScript.Proofs.Evaluation.Fault

set_option autoImplicit false

/-!
# Sound evaluations

A sound evaluation starts from a typed forest and goes through typed forests only, each with the
rows of those before it. It never ends in a fault of a tree, and where there are no functions it
ends in a fault of kinds only as it comes to order two arrays, and it does not depend on titles.
-/

namespace LevelScript

/-- What is returned fits, unless there is no function that it could be returned by. -/
def Stop.Fits (functions : Bool) (forest : Forest) : Stop → Prop
  | .returned operand => functions = true → operand.Fits functions forest
  | _ => True

def World.under (titles : Titles) (world : World) : World :=
  { world with titles := titles }

namespace Value

theorem writtenItems_congr {titles titles' : Titles} {items : List Value}
    (h : ∀ item ∈ items, item.written titles = item.written titles') :
    writtenItems titles items = writtenItems titles' items := by
  induction items with
  | nil => rfl
  | cons item items ih =>
    obtain ⟨hitem, hitems⟩ := List.forall_mem_cons.1 h
    rw [writtenItems, writtenItems, hitem, ih hitems]

/-- Titles are for functions only. -/
theorem Allowed.written_eq {value : Value} (h : value.Allowed false) (titles titles' : Titles) :
    value.written titles = value.written titles' := by
  induction h with
  | number | text | boolean => rfl
  | array _ ih => rw [written, written, writtenItems_congr ih]
  | void hf | function hf => cases hf

theorem Allowed.display_eq {value : Value} (h : value.Allowed false) (titles titles' : Titles) :
    value.display titles = value.display titles' := by
  rw [display.eq_def, display.eq_def]
  split
  · rfl
  · exact h.written_eq titles titles'

end Value

namespace Evaluation

variable {functions : Bool} {α β : Type} {forest : Forest}

/-- From a world with this forest on, no fault of a tree comes up, and where there are no functions
a fault of kinds comes up only as two arrays are ordered. -/
def Careful (functions : Bool) (x : Evaluation α) (forest : Forest) : Prop :=
  ∀ world cause last, world.forest = forest → x.run world = (.error (.fault cause), last) →
    cause.ofTree = false ∧
      (functions = false → cause.ofKinds = true → OrdersArrays x world last cause)

theorem careful_of_harmless {x : Evaluation α}
    (h : ∀ world cause last, world.forest = forest → x.run world = (.error (.fault cause), last) →
      cause.Harmless functions) : Careful functions x forest := by
  intro world cause last hworld hrun
  have hharmless := h world cause last hworld hrun
  refine ⟨hharmless.tree, fun hnone hkind => ?_⟩
  rw [hharmless.kinds hnone] at hkind
  cases hkind

/-- From a world with this forest on, titles make no difference. -/
def Untitled (x : Evaluation α) (forest : Forest) : Prop :=
  ∀ world titles, world.forest = forest →
    x.run (world.under titles) = ((x.run world).1, (x.run world).2.under titles)

/-- What holds from a world with this forest on, with a result that is good in the forest that is
left. -/
structure Sound (functions : Bool) (good : α → Forest → Prop) (x : Evaluation α)
    (forest : Forest) : Prop where
  meets : ∀ world : World, world.forest = forest →
    x.Meets (fun w => w.forest.Typed functions ∧ forest.Extends w.forest)
      (fun a w => good a w.forest) (fun r w => r.Fits functions w.forest) world
  careful : Careful functions x forest
  untitled : functions = false → Untitled x forest

def Steady (functions : Bool) (good : α → Prop) (x : Evaluation α) (forest : Forest) : Prop :=
  Sound functions (fun a later => later = forest ∧ good a) x forest

namespace Sound

variable {good : α → Forest → Prop} {x : Evaluation α}

theorem mono {good' : α → Forest → Prop} (h : Sound functions good x forest)
    (hgood : ∀ a later, good a later → good' a later) : Sound functions good' x forest where
  meets world hworld := (h.meets world hworld).mono (fun _ h => h)
    (fun a w _ ha => hgood a w.forest ha) fun _ _ _ h => h
  careful := h.careful
  untitled := h.untitled

theorem run {world last : World} {a : α} (h : Sound functions good x forest)
    (hworld : world.forest = forest) (hrun : x.run world = (.ok a, last)) :
    forest.Extends last.forest ∧ last.forest.Typed functions ∧ good a last.forest := by
  obtain ⟨⟨htyped, hextends⟩, hgood⟩ := (h.meets world hworld).run hrun
  exact ⟨hextends, htyped, hgood⟩

theorem bind {rest : β → Forest → Prop} {f : α → Evaluation β} (hx : Sound functions good x forest)
    (hf : ∀ a later, forest.Extends later → later.Typed functions → good a later →
      Sound functions rest (f a) later) : Sound functions rest (x >>= f) forest where
  meets world hworld := by
    refine meets_bind.2 ((hx.meets world hworld).mono (fun _ h => h) ?_ fun _ _ _ h => h)
    intro a w ⟨htyped, hextends⟩ hgood
    refine ((hf a w.forest hextends htyped hgood).meets w rfl).mono ?_ (fun _ _ _ h => h)
      fun _ _ _ h => h
    intro v ⟨hv, hlater⟩
    exact ⟨hv, hextends.trans hlater⟩
  careful world cause last hworld hrun := by
    rcases run_bind_stopped hrun with hfirst | ⟨a, between, hfirst, hrest⟩
    · obtain ⟨htree, hkinds⟩ := hx.careful world cause last hworld hfirst
      refine ⟨htree, fun hnone hkind => ?_⟩
      obtain ⟨op, left, right, xs, ys, reason, hcomes, horders⟩ := hkinds hnone hkind
      exact ⟨op, left, right, xs, ys, reason, hcomes.bind f, horders⟩
    · obtain ⟨hextends, htyped, hgood⟩ := hx.run hworld hfirst
      obtain ⟨htree, hkinds⟩ :=
        (hf a between.forest hextends htyped hgood).careful between cause last rfl hrest
      refine ⟨htree, fun hnone hkind => ?_⟩
      obtain ⟨op, left, right, xs, ys, reason, hcomes, horders⟩ := hkinds hnone hkind
      exact ⟨op, left, right, xs, ys, reason, .after hfirst hcomes, horders⟩
  untitled hnone world titles hworld := by
    rw [run_bind, run_bind, hx.untitled hnone world titles hworld]
    cases hfirst : x.run world with
    | mk ended between =>
      cases ended with
      | error reason => rfl
      | ok a =>
        obtain ⟨hextends, htyped, hgood⟩ := hx.run hworld hfirst
        exact (hf a between.forest hextends htyped hgood).untitled hnone between titles rfl

end Sound

theorem Steady.bind {middle : α → Prop} {good : β → Forest → Prop} {x : Evaluation α}
    {f : α → Evaluation β} (hx : Steady functions middle x forest)
    (hf : ∀ a, middle a → Sound functions good (f a) forest) :
    Sound functions good (x >>= f) forest := by
  refine Sound.bind hx ?_
  rintro a _ - _ ⟨rfl, hmiddle⟩
  exact hf a hmiddle

theorem Steady.sound {good : α → Prop} {x : Evaluation α} (h : Steady functions good x forest) :
    Sound functions (fun _ _ => True) x forest :=
  h.mono fun _ _ _ => trivial

theorem sound_pure {good : α → Forest → Prop} {a : α} (h : forest.Typed functions)
    (hgood : good a forest) : Sound functions good (pure a) forest where
  meets := by
    rintro world rfl
    exact ⟨⟨h, .refl _⟩, hgood⟩
  careful := careful_of_harmless fun _ _ _ _ hrun => nomatch hrun
  untitled _ _ _ _ := rfl

theorem sound_stop {good : α → Forest → Prop} {reason : Stop} (h : forest.Typed functions)
    (hfits : reason.Fits functions forest)
    (hharmless : ∀ cause, reason = .fault cause → cause.Harmless functions) :
    Sound functions good (stop reason) forest where
  meets := by
    rintro world rfl
    exact ⟨⟨h, .refl _⟩, hfits⟩
  careful := by
    refine careful_of_harmless fun world cause last _ hrun => ?_
    cases hrun
    exact hharmless cause rfl
  untitled _ _ _ _ := rfl

theorem sound_raise {good : α → Forest → Prop} {cause : Fault} (h : forest.Typed functions)
    (hcause : cause.Harmless functions) : Sound functions good (raise cause) forest := by
  refine sound_stop h trivial ?_
  rintro _ ⟨⟩
  exact hcause

theorem sound_unless {good : α → Forest → Prop} {p : Prop} [Decidable p] {cause : Fault}
    {f : β → Evaluation α} {x : Evaluation α} (h : forest.Typed functions)
    (hcause : cause.Harmless functions) (hx : ¬p → Sound functions good x forest) :
    Sound functions good (if p then raise cause >>= f else x) forest := by
  split
  · exact sound_raise h hcause
  · next hp => exact hx hp

theorem sound_change {update : World → World} (g : Forest → Forest)
    (hupdate : ∀ world, (update world).forest = g world.forest)
    (htitles : ∀ world titles, update (world.under titles) = (update world).under titles)
    (h : forest.Typed functions) (hlater : (g forest).Typed functions)
    (hextends : forest.Extends (g forest)) :
    Sound functions (fun _ later => later = g forest) (change update) forest where
  meets := by
    rintro world rfl
    refine ⟨⟨h, .refl _⟩, ?_⟩
    rw [Meets, hupdate]
    exact ⟨⟨hlater, hextends⟩, rfl⟩
  careful := careful_of_harmless fun _ _ _ _ hrun => nomatch hrun
  untitled _ world titles _ := congrArg (Prod.mk _) (htitles world titles)

theorem forest_steady (h : forest.Typed functions) :
    Steady functions (fun a => a = forest) Evaluation.forest forest where
  meets := by
    rintro world rfl
    exact ⟨⟨h, .refl _⟩, ⟨h, .refl _⟩, rfl, rfl⟩
  careful := careful_of_harmless fun _ _ _ _ hrun => nomatch hrun
  untitled _ _ _ _ := rfl

theorem emit_steady (h : forest.Typed functions) (event : Event) :
    Steady functions (fun _ => True) (emit event) forest :=
  Sound.mono (x := emit event) (sound_change id (fun _ => rfl) (fun _ _ => rfl) h h (.refl _))
    fun _ _ hlater => ⟨hlater, trivial⟩

theorem say_steady (h : forest.Typed functions) (text : String) :
    Steady functions (fun _ => True) (say text) forest :=
  emit_steady h _

theorem ofExcept_steady {ε : Type} {fault : ε → Fault} {x : Except ε α}
    (h : forest.Typed functions)
    (hharmless : ∀ reason, x = .error reason → (fault reason).Harmless functions) :
    Steady functions (fun a => x = .ok a) (ofExcept fault x) forest := by
  cases x with
  | ok a => exact sound_pure h ⟨rfl, rfl⟩
  | error reason => exact sound_raise h (hharmless reason rfl)

theorem read_steady (h : forest.Typed functions) (operand : Operand) :
    Steady functions (fun a => a = operand.value forest) (read operand) forest := by
  refine (forest_steady h).bind ?_
  rintro _ rfl
  exact sound_pure h ⟨rfl, rfl⟩

theorem display_steady {value : Value} (h : forest.Typed functions)
    (hvalue : value.Allowed functions) :
    Steady functions (fun _ => True) (display value) forest := by
  have hshown (titles : Titles) : Steady functions (fun _ => True)
      (ofExcept .numeral (value.display titles)) forest :=
    (ofExcept_steady h fun _ _ => Fault.harmless_numeral _).mono fun _ _ hshown =>
      ⟨hshown.1, trivial⟩
  refine ⟨?_, ?_, ?_⟩
  · rintro world rfl
    exact ⟨⟨h, .refl _⟩, (hshown world.titles).meets world rfl⟩
  · refine careful_of_harmless fun world cause last _ hrun => ?_
    rw [run_display, run_ofExcept] at hrun
    split at hrun <;> cases hrun
    exact Fault.harmless_numeral _
  · rintro rfl world titles hworld
    rw [run_display, run_display, World.under, hvalue.display_eq titles world.titles]
    exact (hshown world.titles).untitled rfl world titles hworld

theorem resolve_steady (h : forest.Typed functions) (scope : ScopeId) (name : String) :
    Steady functions (fun found => forest.row? found.1 name = some found.2) (resolve scope name)
      forest := by
  refine (forest_steady h).bind ?_
  rintro _ rfl
  exact (ofExcept_steady h Forest.harmless_resolve).mono fun _ _ hfound =>
    ⟨hfound.1, Forest.resolve_row? hfound.2⟩

theorem assign_sound (h : forest.Typed functions) (scope : ScopeId) (name : String)
    {type : TypeName} {value : Value} (hvalue : value.Fits functions type) :
    Sound functions (fun _ _ => True) (assign scope name type value) forest := by
  refine (forest_steady h).bind ?_
  rintro _ rfl
  refine (ofExcept_steady h Forest.harmless_target).bind fun owner howner => ?_
  exact (sound_change (fun forest => forest.write owner name value) (fun _ => rfl) (fun _ _ => rfl)
    h (h.write howner hvalue) (Forest.extends_write _ owner name value)).mono fun _ _ _ => trivial

theorem declare_sound (h : forest.Typed functions) (scope : ScopeId) {name : String}
    {type : TypeName} {value : Value} {isFunction : Bool}
    (ht : isFunction = true ∨ type ∈ TypeName.declarable)
    (hrow : ∀ started shift, Scope.startValue type value isFunction = .ok started →
      Row.Typed functions ⟨name, type, started, shift, isFunction⟩) :
    Sound functions (fun _ _ => True) (declare scope name type value isFunction) forest := by
  refine (forest_steady h).bind ?_
  rintro _ rfl
  refine (ofExcept_steady h (Forest.harmless_newRow ht)).bind fun row hnew => ?_
  obtain ⟨found, started, hfound, hnone, hstarted, hshape⟩ := Forest.newRow_eq hnew
  have htyped : row.Typed functions := hshape ▸ hrow started found.nextShift hstarted
  exact (sound_change (fun forest => forest.add scope row) (fun _ => rfl) (fun _ _ => rfl) h
    (h.add hfound (hshape ▸ hnone) htyped) (Forest.extends_add _ scope row)).mono
      fun _ _ _ => trivial

theorem declareVariable_sound (h : forest.Typed functions) (scope : ScopeId) (name : String)
    {type : TypeName} {value : Value} (ht : type ∈ TypeName.declarable)
    (hvalue : value.Fits functions type) :
    Sound functions (fun _ _ => True) (declare scope name type value false) forest :=
  declare_sound h scope (.inr ht) fun _ _ hstarted =>
    .held ht (Scope.startValue_fits ht hvalue hstarted)

theorem enclose_sound (h : forest.Typed functions) (parent : ScopeId) :
    Sound functions (fun _ _ => True) (enclose parent) forest := by
  refine (forest_steady h).bind ?_
  rintro _ rfl
  refine Sound.bind (sound_change (fun forest => (forest.grow (some parent)).2) (fun _ => rfl)
    (fun _ _ => rfl) h (h.grow (some parent)) (Forest.extends_grow _ (some parent)))
      fun _ _ _ hlater _ => ?_
  exact sound_pure hlater trivial

theorem run_binary (op : BinaryOp) (left right : Operand) (world : World) :
    (binary op (some left) (some right)).run world =
      match op.apply left.type (left.value world.forest) right.type (right.value world.forest) with
      | .ok result => (.ok (.temporary result.1 result.2), world)
      | .error cause => (.error (.fault cause), world) := by
  change (ofExcept id (op.apply left.type (left.value world.forest) right.type
    (right.value world.forest)) >>= _).run world = _
  cases op.apply left.type (left.value world.forest) right.type (right.value world.forest) <;> rfl

theorem careful_binary {op : BinaryOp} {left right : Operand} (h : forest.Typed functions)
    (hop : op ∈ BinaryOp.all) (hl : left.Fits functions forest) (hr : right.Fits functions forest) :
    Careful functions (binary op (some left) (some right)) forest := by
  rintro world cause last rfl hrun
  rw [run_binary] at hrun
  split at hrun
  · cases hrun
  next hresult =>
  cases hrun
  rcases BinaryOp.apply_error hop (hl.value h) (hr.value h) hresult with
    hharmless | ⟨relation, xs, ys, reason, rfl, hltype, hrtype, hleft, hright, herror, rfl⟩
  · refine ⟨hharmless.tree, fun hnone hkind => ?_⟩
    rw [hharmless.kinds hnone] at hkind
    cases hkind
  · obtain ⟨kind, other, rfl⟩ := Value.order_error _ _ _ _ herror
    exact ⟨rfl, fun _ _ => ⟨relation, left, right, xs, ys, _, .self _ _, hltype, hrtype, hleft,
      hright, herror, rfl⟩⟩

theorem binary_sound {op : BinaryOp} {left right : Operand} (h : forest.Typed functions)
    (hop : op ∈ BinaryOp.all) (hl : left.Fits functions forest) (hr : right.Fits functions forest) :
    Sound functions (fun operand later => operand.Fits functions later)
      (binary op (some left) (some right)) forest := by
  refine ⟨?_, careful_binary h hop hl hr, fun _ world titles _ => ?_⟩
  · rintro world rfl
    refine ⟨⟨h, .refl _⟩, ⟨h, .refl _⟩, ?_⟩
    change Meets _ _ _ (ofExcept id (op.apply left.type (left.value world.forest) right.type
      (right.value world.forest)) >>= _) world
    cases hresult : op.apply left.type (left.value world.forest) right.type
        (right.value world.forest) with
    | ok result => exact ⟨⟨h, .refl _⟩, BinaryOp.apply_fits (hl.value h) (hr.value h) hresult⟩
    | error cause => exact ⟨⟨h, .refl _⟩, trivial⟩
  · simp only [run_binary, World.under]
    cases op.apply left.type (left.value world.forest) right.type (right.value world.forest) <;> rfl

theorem unary_sound {op : UnaryOp} {operand : Operand} (h : forest.Typed functions)
    (hoperand : operand.Fits functions forest) :
    Sound functions (fun operand later => operand.Fits functions later) (unary op (some operand))
      forest := by
  cases op with
  | minus =>
    refine sound_unless h (Fault.harmless_type _) fun htype => ?_
    refine (read_steady h operand).bind ?_
    rintro _ rfl
    have hvalue := hoperand.value h
    rw [not_not.1 htype] at hvalue
    refine (ofExcept_steady h (Value.harmless_negated hvalue)).bind fun negated hnegated => ?_
    obtain ⟨n, rfl⟩ := Value.negated_number hnegated
    exact sound_pure h .number
  | not =>
    refine sound_unless h (Fault.harmless_type _) fun _ => ?_
    exact (read_steady h operand).bind fun value _ => sound_pure h .boolean
  | plus => exact sound_pure h hoperand
  | other spelling => exact sound_pure h hoperand

theorem element_sound {array index : Value} (h : forest.Typed functions)
    (ha : array.Fits functions .array) (hi : index.Fits functions .number) :
    Sound functions (fun operand later => operand.Fits functions later) (element array index)
      forest := by
  refine (ofExcept_steady h (Value.harmless_order .less hi .number)).bind fun below hbelow => ?_
  refine sound_unless h (Fault.harmless_type _) fun hlow => ?_
  refine (ofExcept_steady h (Value.harmless_length ha)).bind fun length hlength => ?_
  refine (ofExcept_steady h (Value.harmless_order .atLeast hi .number)).bind
    fun above habove => ?_
  refine sound_unless h (Fault.harmless_type _) fun hhigh => ?_
  rw [Bool.not_eq_true] at hlow hhigh
  subst hlow hhigh
  have hitem := Value.item_ne_error ha hi hbelow hlength habove
  refine (ofExcept_steady h fun reason hreason => absurd hreason (hitem reason)).bind
    fun item hfound => ?_
  exact sound_pure h (Value.item_allowed ha hfound).fits_elementType

end Evaluation

end LevelScript

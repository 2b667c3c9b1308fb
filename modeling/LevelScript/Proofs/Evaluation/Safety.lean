import LevelScript.Proofs.Evaluation.Action
import LevelScript.Proofs.Parser.Printing
import LevelScript.Session

set_option autoImplicit false

namespace LevelScript.Evaluation

variable {functions : Bool} {forest : Forest} {eval : Evaluator} {scope : ScopeId}

theorem elements_sound {nodes : List Node} (he : SoundOn functions eval)
    (hnodes : ∀ node ∈ nodes, Sourced functions .expression node) (h : forest.Typed functions) :
    Sound functions (fun values _ => ∀ value ∈ values, value.Allowed functions)
      (elements eval scope nodes) forest := by
  induction nodes generalizing forest with
  | nil => exact sound_pure h nofun
  | cons node nodes ih =>
    obtain ⟨hnode, hnodes⟩ := List.forall_mem_cons.1 hnodes
    refine he.expression hnode h fun operand later _ h hoperand => ?_
    refine (read_steady h operand).bind ?_
    rintro _ rfl
    have hfirst := (hoperand.value h).allowed
    refine (ih hnodes h).bind fun rest later _ h hrest => ?_
    exact sound_pure h (List.forall_mem_cons.2 ⟨hfirst, hrest⟩)

theorem access_sound {array index : Node} (he : SoundOn functions eval)
    (ha : Sourced functions .expression array) (hi : Sourced functions .expression index)
    (h : forest.Typed functions) :
    Sound functions (fun operand later => operand.Fits functions later)
      (access eval scope array index) forest := by
  refine he.expression ha h fun array later _ h harray => ?_
  refine sound_unless h (Fault.harmless_type _) fun htype => ?_
  refine he.expression hi h fun index later hlater h hindex => ?_
  refine sound_unless h (Fault.harmless_type _) fun hnumber => ?_
  refine (read_steady h array).bind ?_
  rintro _ rfl
  refine (read_steady h index).bind ?_
  rintro _ rfl
  exact element_sound h (not_not.1 htype ▸ (harray.extend hlater).value h)
    (not_not.1 hnumber ▸ hindex.value h)

theorem length_sound {array : Node} (he : SoundOn functions eval)
    (ha : Sourced functions .expression array) (h : forest.Typed functions) :
    Sound functions (fun operand later => operand.Fits functions later) (length eval scope array)
      forest := by
  refine he.expression ha h fun array later _ h harray => ?_
  refine sound_unless h (Fault.harmless_type _) fun htype => ?_
  refine (read_steady h array).bind ?_
  rintro _ rfl
  have hvalue := harray.value h
  rw [not_not.1 htype] at hvalue
  exact (ofExcept_steady h (Value.harmless_length hvalue)).bind fun length _ => sound_pure h .number

theorem assignment_sound {label : Nat} {name : String} {value : Node} (he : SoundOn functions eval)
    (hvalue : Sourced functions .expression value) (h : forest.Typed functions) :
    Sound functions (fun _ _ => True) (assignment eval scope (.identifier label name) value)
      forest := by
  refine he.expression hvalue h fun operand later _ h hoperand => ?_
  refine (read_steady h operand).bind ?_
  rintro _ rfl
  exact assign_sound h scope name (hoperand.value h)

theorem declaration_sound {label : Nat} {name : String} {type : TypeName} {value : Option Node}
    (he : SoundOn functions eval) (ht : type ∈ TypeName.declarable)
    (hvalue : ∀ node ∈ value, Sourced functions .expression node) (h : forest.Typed functions) :
    Sound functions (fun _ _ => True)
      (declaration eval scope (some type) (.identifier label name) value) forest := by
  cases value with
  | none =>
    exact declare_sound h scope (.inr ht) fun _ _ hstarted =>
      .held ht (Scope.startValue_void ht hstarted)
  | some value =>
    refine he.expression (hvalue value rfl) h fun operand later _ h hoperand => ?_
    refine sound_unless h (Fault.harmless_type _) fun hsame => ?_
    refine (read_steady h operand).bind ?_
    rintro _ rfl
    have hfits := hoperand.value h
    rw [← not_not.1 hsame] at hfits
    exact declareVariable_sound h scope name ht hfits

theorem commands_sound {nodes : List Node} (he : SoundOn functions eval)
    (hnodes : ∀ node ∈ nodes, Sourced functions .command node) (h : forest.Typed functions) :
    Sound functions (fun _ _ => True) (commands eval scope nodes) forest := by
  induction nodes generalizing forest with
  | nil => exact sound_pure h trivial
  | cons node nodes ih =>
    obtain ⟨hnode, hnodes⟩ := List.forall_mem_cons.1 hnodes
    rw [commands]
    split
    · refine (enclose_sound h scope).bind fun inner later _ h _ => ?_
      exact he.command hnode h fun _ later h => ih hnodes h
    · exact he.command hnode h fun _ later h => ih hnodes h

theorem holds_sound {condition : Node} {fault : TypeFault} (he : SoundOn functions eval)
    (hc : Sourced functions .expression condition) (h : forest.Typed functions) :
    Sound functions (fun _ _ => True) (holds eval scope condition fault) forest := by
  refine he.expression hc h fun operand later _ h _ => ?_
  refine sound_unless h (Fault.harmless_type _) fun _ => ?_
  exact (read_steady h operand).bind fun value _ => sound_pure h trivial

theorem conditional_sound {condition positive : Node} {negative : Option Node}
    (he : SoundOn functions eval) (hc : Sourced functions .expression condition)
    (hp : Sourced functions .command positive)
    (hn : ∀ node ∈ negative, Sourced functions .command node) (h : forest.Typed functions) :
    Sound functions (Good functions .command) (conditional eval scope condition positive negative)
      forest := by
  refine (holds_sound he hc h).bind fun truth later _ h _ => ?_
  split
  · exact he _ _ scope _ hp h
  · cases negative with
    | none => exact sound_pure h ⟨nofun, nofun⟩
    | some node => exact he _ _ scope _ (hn node rfl) h

theorem loop_sound {condition body : Node} (he : SoundOn functions eval)
    (hc : Sourced functions .expression condition) (hb : Sourced functions .command body)
    (rounds : Nat) (h : forest.Typed functions) :
    Sound functions (fun _ _ => True) (loop eval scope condition body rounds) forest := by
  induction rounds generalizing forest with
  | zero => exact sound_stop h trivial nofun
  | succ rounds ih =>
    refine (holds_sound he hc h).bind fun truth later _ h _ => ?_
    split
    · exact he.command hb h fun _ later h => ih h
    · exact sound_pure h trivial

theorem result_sound {value : Option Node} (he : SoundOn functions eval)
    (hvalue : ∀ node ∈ value, Sourced functions .expression node) (h : forest.Typed functions) :
    Sound functions (Good functions .command) (result eval scope value) forest := by
  cases value with
  | none => exact sound_stop h (fun hf => .void hf (by decide)) nofun
  | some node =>
    refine he.expression (hvalue node rfl) h fun operand later _ h hoperand => ?_
    exact sound_stop h (fun _ => hoperand) nofun

theorem parameterName_steady {parameter : Node} (h : forest.Typed functions)
    (hp : Sourced functions .parameter parameter) :
    Steady functions (fun _ => True) (parameterName parameter) forest := by
  cases hp with
  | parameter => exact sound_pure h ⟨rfl, trivial⟩
  | call hrole => exact absurd hrole (by decide)

theorem bindParameters_sound {inner : ScopeId} {name : String} {parameters arguments : List Node}
    (he : SoundOn functions eval)
    (hp : ∀ node ∈ parameters, Sourced functions .parameter node)
    (ha : ∀ node ∈ arguments, Sourced functions .expression node) (h : forest.Typed functions) :
    Sound functions (fun _ _ => True)
      (bindParameters eval scope inner name parameters arguments) forest := by
  induction parameters generalizing arguments forest with
  | nil => exact sound_pure h trivial
  | cons parameter parameters ih =>
    cases arguments with
    | nil => exact sound_pure h trivial
    | cons argument arguments =>
      obtain ⟨hparameter, hp⟩ := List.forall_mem_cons.1 hp
      obtain ⟨hargument, ha⟩ := List.forall_mem_cons.1 ha
      refine (parameterName_steady h hparameter).bind fun label _ => ?_
      refine he.expression hargument h fun operand later _ h hoperand => ?_
      refine sound_unless h (Fault.harmless_type _) fun htype => ?_
      refine (read_steady h operand).bind ?_
      rintro _ rfl
      have hdeclarable := hparameter.declarable_parameterType? (not_not.1 htype)
      refine (declareVariable_sound h inner label hdeclarable (hoperand.value h)).bind
        fun _ later _ h _ => ?_
      exact ih hp ha h

/-- Faults go through where returns are caught, and what is returned fits. -/
theorem returnedBy_sound {body : Evaluation Unit} (hf : functions = true)
    (hbody : Sound functions (fun _ _ => True) body forest) :
    Sound functions (Good functions .command) (returnedBy body) forest := by
  refine ⟨fun world hworld => ?_, fun world cause last hworld hrun => ?_, fun hnone => ?_⟩
  · refine meets_recover.2
      (meets_bind.2 ((hbody.meets world hworld).mono (fun _ h => h) ?_ ?_))
    · exact fun _ w hw _ => ⟨hw, nofun, nofun⟩
    · intro reason w hw hreason
      cases reason with
      | returned operand =>
        refine ⟨hw, nofun, ?_⟩
        rintro _ ⟨⟩
        exact hreason hf
      | fault cause => exact ⟨hw, trivial⟩
      | tooDeep => exact ⟨hw, trivial⟩
      | unfinished => exact ⟨hw, trivial⟩
  · have hbind : (body.bind fun _ => .done (none : Option Operand)).run world = _ :=
      run_bind body (fun _ => pure none) world
    rw [returnedBy, run_recover, hbind] at hrun
    cases hended : body.run world with
    | mk ended between =>
      rw [hended] at hrun
      cases ended with
      | ok _ => cases hrun
      | error reason =>
        cases reason with
        | fault cause =>
          cases hrun
          refine ⟨(hbody.careful world cause last hworld hended).1, fun hnone => ?_⟩
          rw [hf] at hnone
          cases hnone
        | returned | tooDeep | unfinished => cases hrun
  · rw [hf] at hnone
    cases hnone

theorem outcome_sound {name : String} {type : Option TypeName} {returned : Option Operand}
    (hf : functions = true) (hreturned : Good functions .command returned forest)
    (h : forest.Typed functions) :
    Sound functions (fun operand later => operand.Fits functions later)
      (outcome name type returned) forest := by
  cases type with
  | none => exact sound_pure h (.void hf (by decide))
  | some type =>
    cases returned with
    | none => exact sound_raise h (Fault.harmless_type _)
    | some operand =>
      exact sound_unless h (Fault.harmless_type _) fun _ => sound_pure h (hreturned.2 operand rfl)

theorem call_sound {name : String} {arguments : List Node} (he : SoundOn functions eval)
    (ha : ∀ node ∈ arguments, Sourced functions .expression node) (h : forest.Typed functions) :
    Sound functions (fun operand later => operand.Fits functions later)
      (call eval scope name arguments) forest := by
  refine (resolve_steady h scope name).bind fun found hfound => ?_
  obtain ⟨owner, row⟩ := found
  cases h.row? hfound with
  | held => exact sound_raise h (Fault.harmless_type _)
  | @function _ f _ hf hdeclared =>
    refine sound_unless h (Fault.harmless_type _) fun _ => ?_
    refine (enclose_sound h scope).bind fun inner later _ h _ => ?_
    refine (bindParameters_sound he hdeclared.parameters ha h).bind fun _ later _ h _ => ?_
    obtain ⟨body, hbody, hsourced⟩ := hdeclared.body
    rw [hbody]
    have hdiscard : Sound functions (fun _ _ => True) (discard (eval body inner)) later := by
      change Sound functions _ (eval body inner >>= fun _ => pure ()) later
      exact he.command hsourced h fun _ _ h => sound_pure h trivial
    exact (returnedBy_sound hf hdiscard).bind
      fun returned _ _ h hreturned => outcome_sound hf hreturned h

theorem declareFunction_sound {f : Function} (hf : functions = true)
    (hdeclared : f.Declared functions) (h : forest.Typed functions) :
    Sound functions (fun _ _ => True) (declareFunction scope f) forest := by
  refine declare_sound h scope (.inl rfl) fun started shift hstarted => ?_
  cases hstarted
  exact .function hf hdeclared

theorem declared_of_sourced {id label : Nat} {name : String} {type : Option TypeName}
    {parameters : List Node} {body : Node}
    (hp : ∀ node ∈ parameters, Sourced functions .parameter node)
    (hb : Sourced functions .command body) :
    Function.Declared functions
      ⟨id, name, type, .identifier label name :: parameters ++ [body]⟩ := by
  constructor
  · simpa [Function.parameters] using hp
  · exact ⟨body, List.getLast?_concat, hb⟩

theorem good_some {role : Role} {operand : Operand} (h : operand.Fits functions forest) :
    Good functions role (some operand) forest := by
  refine ⟨fun _ => rfl, ?_⟩
  rintro _ ⟨⟩
  exact h

theorem step_soundOn (rounds : Nat) (he : SoundOn functions eval) :
    SoundOn functions (step rounds eval) := by
  intro role node scope forest hnode h
  -- a value of an expression is handed on as a result that is there
  have handed {x : Evaluation Operand} {forest : Forest}
      (hx : Sound functions (fun operand later => operand.Fits functions later) x forest) :
      Sound functions (Good functions role) (x >>= fun operand => pure (some operand)) forest :=
    hx.bind fun operand _ _ h hfits => sound_pure h (good_some hfits)
  -- a command has no result
  have ended {x : Evaluation Unit} (hrole : role ≠ .expression)
      (hx : Sound functions (fun _ _ => True) x forest) :
      Sound functions (Good functions role) (x >>= fun _ => pure none) forest :=
    hx.bind fun _ _ _ h _ => sound_pure h ⟨fun hexpression => absurd hexpression hrole, nofun⟩
  cases hnode with
  | number => exact sound_pure h (good_some .number)
  | boolean => exact sound_pure h (good_some .boolean)
  | text => exact sound_pure h (good_some .text)
  | @identifier _ name =>
    refine (resolve_steady h scope name).bind fun found hfound => ?_
    obtain ⟨owner, row⟩ := found
    exact sound_pure h (good_some ⟨row, (Forest.row?_name hfound).symm ▸ hfound, rfl⟩)
  | binary hop hl hr =>
    refine he.expression hl h fun left later _ h hleft => ?_
    refine he.expression hr h fun right later hlater h hright => ?_
    exact handed (binary_sound h hop (hleft.extend hlater) hright)
  | unary _ ho =>
    exact he.expression ho h fun operand later _ h hoperand => handed (unary_sound h hoperand)
  | array hnodes =>
    refine (elements_sound he hnodes h).bind fun values later _ h hvalues => ?_
    exact sound_pure h (good_some (.array hvalues))
  | access hi => exact handed (access_sound he .identifier hi h)
  | length => exact handed (length_sound he .identifier h)
  | call _ ha => exact handed (call_sound he ha h)
  | assignment hv => exact ended (by decide) (assignment_sound he hv h)
  | declaration ht hv =>
    exact ended (by decide) (declaration_sound he ht (by rintro _ ⟨⟩; exact hv) h)
  | parameter ht => exact ended (by decide) (declaration_sound he ht nofun h)
  | function hf _ hp hb =>
    exact ended (by decide) (declareFunction_sound hf (declared_of_sourced hp hb) h)
  | block hnodes => exact ended (by decide) (commands_sound he hnodes h)
  | skip => exact sound_pure h ⟨nofun, nofun⟩
  | conditional hc hp hn => exact conditional_sound he hc hp hn h
  | loop hc hb => exact ended (by decide) (loop_sound he hc hb rounds h)
  | result hv => exact result_sound he hv h
  | action hword ha => exact ended (by decide) (action_sound he hword ha h)

theorem evaluate_soundOn (rounds depth : Nat) : SoundOn functions (evaluate rounds depth) := by
  induction depth with
  | zero => exact fun _ _ _ _ _ h => sound_stop h trivial nofun
  | succ depth ih => exact step_soundOn rounds ih

end LevelScript.Evaluation

namespace LevelScript

/-- A function has the type that it returns. A variable has one of four types and holds a value of
it, or a function, or, if it is for texts, possibly no value. -/
def Row.Consistent (row : Row) : Prop :=
  if row.isFunction then ∃ f, row.value = .function f ∧ row.type = f.result.getD .void
  else row.type ∈ TypeName.declarable ∧
    (row.type.holds row.value = true ∨ (∃ f, row.value = .function f) ∨
      row.type = .text ∧ row.value = .void)

theorem Row.Typed.consistent {functions : Bool} {row : Row} (h : row.Typed functions) :
    row.Consistent := by
  cases h with
  | function hf _ => exact ⟨_, rfl, rfl⟩
  | held htype hvalue =>
    refine ⟨htype, ?_⟩
    cases hvalue with
    | number | text | boolean | array => exact .inl rfl
    | function => exact .inr (.inl ⟨_, rfl⟩)
    | void _ hvoid =>
      rcases List.mem_cons.1 hvoid with rfl | hvoid
      · exact .inr (.inr ⟨rfl, rfl⟩)
      · exact absurd (List.mem_singleton.1 hvoid ▸ htype) (by decide)

/-- Without functions there are only variables, each with a value of its type. -/
theorem Row.Typed.exact {row : Row} (h : row.Typed false) :
    row.isFunction = false ∧ row.type.holds row.value = true := by
  cases h with
  | function hf _ => cases hf
  | held htype hvalue =>
    refine ⟨rfl, ?_⟩
    cases hvalue with
    | number | text | boolean | array => rfl
    | function hf => cases hf
    | void hf _ => cases hf

theorem Forest.Typed.rows {functions : Bool} {forest : Forest} (h : forest.Typed functions)
    {id : ScopeId} {row : Row} (hrow : row ∈ forest.rows id) : row.Typed functions := by
  rw [Forest.rows] at hrow
  cases hscope : forest.scope? id with
  | none =>
    rw [hscope] at hrow
    cases hrow
  | some scope =>
    rw [hscope] at hrow
    exact (h id scope hscope).rows row hrow

theorem Session.start_typed (functions : Bool) : Session.start.forest.Typed functions :=
  @Forest.Typed.grow functions .empty nofun none

theorem parsed_sound (functions : Bool) {built : Nat} {source : String} {node : Node}
    {state : ParseState Lexer} (h : Construct.program.parse built source = .ok (node, state))
    (hf : Permits functions (TokenStream.ofSource source).words) (rounds depth : Nat)
    (root : ScopeId) {forest : Forest} (hforest : forest.Typed functions) :
    Evaluation.Sound functions (fun _ _ => True) (Evaluation.evaluate rounds depth node root)
      forest := by
  obtain ⟨_, nodes, m, hreads, rfl, _⟩ := program_reads h
  have hnode : Sourced functions .command (.block (m + 1) nodes) := .block (hreads.sourced hf)
  exact (Evaluation.evaluate_soundOn rounds depth .command _ root _ hnode hforest).mono
    fun _ _ _ => trivial

theorem moments_typed (functions : Bool) {built : Nat} {source : String} {node : Node}
    {state : ParseState Lexer} (h : Construct.program.parse built source = .ok (node, state))
    (hf : Permits functions (TokenStream.ofSource source).words) (rounds depth : Nat)
    (root : ScopeId) {world : World} (hworld : world.forest.Typed functions) :
    ∀ moment ∈ (Evaluation.evaluate rounds depth node root).moments world,
      moment.forest.Typed functions := by
  intro moment hmoment
  have hsound := parsed_sound functions h hf rounds depth root hworld
  exact ((hsound.meets world rfl).moments moment hmoment).1

/-- At each moment of the evaluation of a source, also at the last one however it ends, each row of
each scope is consistent; and if the source declares no function, each row is a variable that holds
a value of its type. -/
theorem moments_consistent (built : Nat) (source : String) (node : Node) (state : ParseState Lexer)
    (h : Construct.program.parse built source = .ok (node, state)) (rounds depth : Nat)
    (titles : Titles) :
    let evaluation := Evaluation.evaluate rounds depth node Session.start.root
    let world : World := ⟨Session.start.forest, #[], titles⟩
    (evaluation.run world).2 ∈ evaluation.moments world ∧
      ∀ moment ∈ evaluation.moments world, ∀ id, ∀ row ∈ moment.forest.rows id,
        row.Consistent ∧
          (Token.keyword .func ∉ (TokenStream.ofSource source).words →
            row.isFunction = false ∧ row.type.holds row.value = true) := by
  intro evaluation world
  refine ⟨Evaluation.run_mem_moments evaluation world, fun moment hmoment id row hrow => ⟨?_, ?_⟩⟩
  · have htyped := moments_typed true h (.inl rfl) rounds depth _ (Session.start_typed true) moment
      hmoment
    exact (htyped.rows hrow).consistent
  · intro hfunc
    have htyped := moments_typed false h (.inr hfunc) rounds depth _ (Session.start_typed false)
      moment hmoment
    exact (htyped.rows hrow).exact

/-- After `n: number = -2; return -n;` the variable holds a number. -/
theorem returned_variable_consistent :
    ∃ node state titles moment row,
      Construct.program.parse 0 "n: number = -2; return -n;" = .ok (node, state) ∧
      moment ∈ (Evaluation.evaluate 1 9 node Session.start.root).moments
        ⟨Session.start.forest, #[], titles⟩ ∧
      row ∈ moment.forest.rows Session.start.root ∧
      Token.keyword .func ∉ (TokenStream.ofSource "n: number = -2; return -n;").words ∧
      row.Consistent ∧ row.type.holds row.value = true := by
  have hwritten : Written [.identifier "n", .symbol .colon, .keyword .number, .symbol .assign,
      .symbol .minus, .number 2, .symbol .semicolon, .keyword .returnWord, .symbol .minus,
      .identifier "n", .symbol .semicolon] "n: number = -2; return -n;".toList :=
    .token (.token (.blank rfl (.token (.blank rfl (.token (.blank rfl (.token (.token (.token
      (.blank rfl (.token (.blank rfl (.token (.token (.token .nil)))))))))))))))
  obtain ⟨hfault, hwords⟩ := hwritten.words (by decide +kernel) (by decide +kernel)
  rw [String.ofList_toList] at hfault hwords
  have hdeclared : Reads .command 0 [.identifier "n", .symbol .colon, .keyword .number,
      .symbol .assign, .symbol .minus, .number 2, .symbol .semicolon]
      [.declaration 4 (some .number) (.identifier 1 "n") (some (.unary 3 .minus (.number 2 2)))]
      4 :=
    .declared (.variableDeclaration rfl (Reads.loosen (k := .factor) (.signed rfl .number)
      (by decide)))
  have hreturned : Reads .command 4 [.keyword .returnWord, .symbol .minus, .identifier "n",
      .symbol .semicolon] [.result 7 (some (.unary 6 .minus (.identifier 5 "n")))] 7 :=
    .result (Reads.loosen (k := .factor) (.signed rfl .name) (by decide))
  have hreads := Reads.programNext (by decide) hdeclared
    (.programNext (by decide) hreturned .programEnd)
  obtain ⟨d, hparse⟩ := program_parses hfault (by rw [hwords]; exact hreads)
  have hfunc : Token.keyword .func ∉ (TokenStream.ofSource "n: number = -2; return -n;").words := by
    rw [hwords]
    decide
  obtain ⟨hlast, hrows⟩ := moments_consistent 0 _ _ _ hparse 1 9 .numbered
  obtain ⟨hconsistent, hheld⟩ := hrows _ hlast Session.start.root
    ⟨"n", .number, .number (-2), 4, false⟩ List.mem_cons_self
  exact ⟨_, _, _, _, _, hparse, hlast, List.mem_cons_self, hfunc, hconsistent, (hheld hfunc).2⟩

/-- A parsed source that is evaluated from the start never ends in the fault of a tree that no
source has, nor for want of a part, an item or a divisor; and if it declares no function, it ends in
a fault about kinds of values only as it comes to order two arrays. -/
theorem fault_accounted (built : Nat) (source : String) (node : Node) (state : ParseState Lexer)
    (h : Construct.program.parse built source = .ok (node, state)) (rounds depth : Nat)
    (titles : Titles) (cause : Fault) (last : World) :
    let evaluation := Evaluation.evaluate rounds depth node Session.start.root
    let world : World := ⟨Session.start.forest, #[], titles⟩
    evaluation.run world = (.error (.fault cause), last) →
      cause.ofTree = false ∧
        (Token.keyword .func ∉ (TokenStream.ofSource source).words → cause.ofKinds = true →
          evaluation.OrdersArrays world last cause) := by
  intro evaluation world hrun
  constructor
  · have hsound := parsed_sound true h (.inl rfl) rounds depth Session.start.root
      (Session.start_typed true)
    exact (hsound.careful world cause last rfl hrun).1
  · intro hfunc
    have hsound := parsed_sound false h (.inr hfunc) rounds depth Session.start.root
      (Session.start_typed false)
    exact (hsound.careful world cause last rfl hrun).2 rfl

/-- `say([1]<["a"]);` fails as it orders an array of a number and one of a text. -/
theorem mixed_arrays_accounted :
    ∃ node state titles last, Construct.program.parse 0 "say([1]<[\"a\"]);" = .ok (node, state) ∧
      Token.keyword .func ∉ (TokenStream.ofSource "say([1]<[\"a\"]);").words ∧
      (Evaluation.evaluate 1 9 node Session.start.root).run ⟨Session.start.forest, #[], titles⟩ =
        (.error (.fault (.value (.notOrdered .less .number .text))), last) ∧
      (Evaluation.evaluate 1 9 node Session.start.root).OrdersArrays
        ⟨Session.start.forest, #[], titles⟩ last (.value (.notOrdered .less .number .text)) := by
  have hwritten : Written [.keyword .say, .symbol .leftParen, .symbol .leftBracket, .number 1,
      .symbol .rightBracket, .symbol .less, .symbol .leftBracket, .text "a", .symbol .rightBracket,
      .symbol .rightParen, .symbol .semicolon] "say([1]<[\"a\"]);".toList :=
    .token (.token (.token (.token (.token (.token (.token (.token (.token (.token (.token
      .nil))))))))))
  obtain ⟨hfault, hwords⟩ := hwritten.words (by decide +kernel) (by decide +kernel)
  rw [String.ofList_toList] at hfault hwords
  have hone : Reads .factor 0 [.symbol .leftBracket, .number 1, .symbol .rightBracket]
      [.array 2 [.number 1 1]] 2 :=
    .array (.someItems (.itemLast (Reads.loosen (k := .factor) .number (by decide))))
  have htext : Reads .factor 2 [.symbol .leftBracket, .text "a", .symbol .rightBracket]
      [.array 4 [.text 3 "a"]] 4 :=
    .array (.someItems (.itemLast (Reads.loosen (k := .factor) .text (by decide))))
  have hordered : Reads .expression 0 [.symbol .leftBracket, .number 1, .symbol .rightBracket,
      .symbol .less, .symbol .leftBracket, .text "a", .symbol .rightBracket]
      [.binary 5 (.order .less) (.array 2 [.number 1 1]) (.array 4 [.text 3 "a"])] 5 :=
    Reads.loosen (k := .relation)
      (.binary rfl (hone.loosen (by decide)) (htext.loosen (by decide))) (by decide)
  have hsaid : Keyword.say ∈ Keyword.actions := by decide
  have hreads := Reads.programNext (by decide) (.action hsaid (.someItems (.itemLast hordered)))
    .programEnd
  obtain ⟨d, hparse⟩ := program_parses hfault (by rw [hwords]; exact hreads)
  have hfunc : Token.keyword .func ∉ (TokenStream.ofSource "say([1]<[\"a\"]);").words := by
    rw [hwords]
    decide
  exact ⟨_, _, .numbered, ⟨Session.start.forest, #[], _⟩, hparse, hfunc, rfl,
    (fault_accounted 0 _ _ _ hparse 1 9 _ _ _ rfl).2 hfunc rfl⟩

end LevelScript

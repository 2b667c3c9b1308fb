import LevelScript.Proofs.Evaluation.Return
import LevelScript.Proofs.Evaluation.Safety
import LevelScript.Proofs.Evaluation.Tracking
import LevelScript.Proofs.Parser.Declaration
import LevelScript.Proofs.Parser.Renumbering
import LevelScript.Proofs.Token.Joining

set_option autoImplicit false

/-!
# Sources one after the other

Two sources with an end of line between them are parsed to the commands of the first and those of
the second, and their run does what the runs of the two do in one session. In the session the nodes
of the second source have greater numbers, as the root of the first one has taken a number too; the
run is tracked in spite of that.
-/

namespace LevelScript

variable (number : Nat → Nat)

def Datum.renumber (datum : Datum) : Datum :=
  ⟨datum.type, datum.value.renumber number⟩

def Ending.renumber : Ending → Ending
  | .done result => .done (result.map (Datum.renumber number))
  | .fault cause => .fault cause
  | .returned result => .returned (result.renumber number)
  | .tooDeep => .tooDeep
  | .unfinished => .unfinished

def Outcome.renumber : Outcome → Outcome
  | .rejected fault => .rejected fault
  | .evaluated ending => .evaluated (ending.renumber number)

def Outcome.isDone : Outcome → Bool
  | .evaluated (.done _) => true
  | _ => false

theorem Operand.datum_renumber (forest : Forest) (operand : Operand) :
    (operand.renumber number).datum (forest.renumber number) =
      (operand.datum forest).renumber number := by
  rw [datum, datum, type_renumber, value_renumber, Datum.renumber]

theorem Ending.of_image {r : Renaming} {ended ended' : Except Stop (Option Operand) × World}
    (h : (Likeness.tracking r).Ended
      (fun a b => b = Option.map (Operand.renumber r.number) a) ended ended') :
    Ending.of ended'.2.forest ended'.1 = (Ending.of ended.2.forest ended.1).renumber r.number := by
  cases h with
  | @done result _ _ _ hsame himage =>
    subst hsame
    rw [himage.forest]
    cases result with
    | none => rfl
    | some operand => exact congrArg (Ending.done ∘ some) (operand.datum_renumber r.number _)
  | @stopped reason _ _ himage =>
    rw [himage.forest]
    cases reason with
    | returned operand => exact congrArg Ending.returned (operand.datum_renumber r.number _)
    | fault | tooDeep | unfinished => rfl

namespace Session

def after (session : Session) (built : Nat) (ended : Except Stop (Option Operand) × World) :
    Report × Session :=
  (⟨.evaluated (.of ended.2.forest ended.1), ended.2.events.toList,
    ended.2.forest.rows session.root⟩, ⟨ended.2.forest, session.root, built⟩)

theorem forest_start_renumber : start.forest.renumber number = start.forest := by
  have hempty : Forest.empty.renumber number = Forest.empty := by
    simp [Forest.renumber, Forest.empty]
  have hgrow := congrArg Prod.snd (Forest.grow_renumber number Forest.empty none)
  rw [hempty] at hgrow
  exact hgrow.symm

theorem after_image {r : Renaming} {ended ended' : Except Stop (Option Operand) × World}
    (h : (Likeness.tracking r).Ended
      (fun a b => b = Option.map (Operand.renumber r.number) a) ended ended')
    (session session' : Session) (hroot : session'.root = session.root) (built built' : Nat) :
    let report := (session.after built ended).1
    let report' := (session'.after built' ended').1
    report.events = r.before.toList ++ report'.events ∧
      report'.globals = report.globals.map (Row.renumber r.number) ∧
      report'.outcome = report.outcome.renumber r.number := by
  have himage : World.Image r ended.2 ended'.2 := h.worlds
  refine ⟨?_, ?_, congrArg Outcome.evaluated (Ending.of_image h)⟩
  · rw [after, himage.events, Array.toList_append]
    rfl
  · rw [after, himage.forest, hroot, Forest.rows_renumber]
    rfl

theorem run_parsed {session : Session} {source : String} {id : Nat} {nodes : List Node}
    {state : ParseState Lexer} (titles : Titles) (hplain : Text.Commentless source)
    (h : Construct.program.parse session.built source = .ok (.block id nodes, state)) :
    session.run titles source = session.after state.built
      ((Evaluation.commands (Evaluation.evaluate maxRounds 999) session.root nodes >>=
        fun _ => pure none).run ⟨session.forest, #[], titles⟩) := by
  rw [run, hplain.removeComments, h]
  rfl

/-- The run of a source that declares no function is the same whatever the texts of functions. -/
theorem run_untitled {source : String} {tree : Node} {state : ParseState Lexer}
    (hplain : Text.Commentless source)
    (h : Construct.program.parse start.built source = .ok (tree, state))
    (hfunc : Token.keyword .func ∉ (TokenStream.ofSource source).words) (titles titles' : Titles) :
    start.run titles' source = start.run titles source := by
  have hsound := parsed_sound false h (.inr hfunc) maxRounds maxDepth start.root (start_typed false)
  have huntitled := hsound.untitled rfl ⟨start.forest, #[], titles⟩ titles' rfl
  rw [World.under] at huntitled
  simp only [run, hplain.removeComments, h, evaluate, huntitled]
  rfl

end Session

def numberAfter (m n : Nat) : Nat :=
  if n ≤ m then n else n + 1

theorem numberAfter_injective (m : Nat) : Function.Injective (numberAfter m) := by
  intro a b h
  simp only [numberAfter] at h
  split at h <;> split at h <;> omega

theorem numberAfter_of_le {m n : Nat} (h : n ≤ m) : numberAfter m n = n :=
  if_pos h

theorem numberAfter_of_lt {m n : Nat} (h : m < n) : numberAfter m n = n + 1 :=
  if_neg (by omega)

theorem Reads.numberAfter_fixes {m : Nat} {tokens : List Token} {nodes : List Node}
    (h : Reads .program 0 tokens nodes m) : nodes.map (Node.renumber (numberAfter m)) = nodes := by
  have hsame := h.renumber (numberAfter m) id fun i _ hi => ⟨numberAfter_of_le hi, rfl⟩
  exact (hsame.program_unique h).1

/-- A program read after another one has numbers that go up, as if one more node stood before it. -/
theorem Reads.numberAfter_moves {m k : Nat} {tokens : List Token} {nodes : List Node}
    (h : Reads .program m tokens nodes k) :
    Reads .program (m + 1) tokens (nodes.map (Node.renumber (numberAfter m))) (k + 1) :=
  h.renumber (numberAfter m) (· + 1) fun _ hi _ => ⟨numberAfter_of_lt (by omega), rfl⟩

theorem Reads.after {m k : Nat} {tokens : List Token} {nodes : List Node}
    (h : Reads .program 0 tokens nodes k) :
    Reads .program m tokens (nodes.map (Node.renumber (· + m))) (k + m) := by
  have hmoved := h.renumber (· + m) (· + m) fun i _ _ =>
    ⟨Nat.add_right_comm i 1 m, Nat.add_right_comm i 1 m⟩
  rwa [Nat.zero_add] at hmoved

theorem joined_parses {first second : String} {nodes others : List Node} {m k : Nat}
    (hfirst : (TokenStream.ofSource first).fault? = none)
    (hsecond : (TokenStream.ofSource second).fault? = none)
    (h : Reads .program 0 (TokenStream.ofSource first).words nodes m)
    (h' : Reads .program m (TokenStream.ofSource second).words others k) :
    ∃ d, Construct.program.parse 0 (Text.joined first second) =
      .ok (.block (k + 1) (nodes ++ others), ⟨d, k + 1⟩) := by
  obtain ⟨hwords, hfault⟩ := TokenStream.ofSource_joined hfirst second
  refine program_parses (hfault.trans hsecond) ?_
  rw [hwords]
  exact h.append (by decide) h'

/-- Commands that keep their numbers come to an image of what they come to with the same texts of
functions under other numbers; from there on, other commands go the same way with other numbers and
without the events so far. -/
theorem commands_image {number : Nat → Nat} (hnumber : Function.Injective number)
    {titles titles' : Titles} (htexts : ∀ id, titles.function (number id) = titles'.function id)
    {nodes : List Node} (hnodes : nodes.map (Node.renumber number) = nodes) (others : List Node)
    {rounds depth : Nat} {scope : ScopeId} {forest : Forest} {last : World}
    (hforest : forest.renumber number = forest)
    (h : (Evaluation.commands (Evaluation.evaluate rounds depth) scope nodes).run
      ⟨forest, #[], titles⟩ = (.ok (), last)) :
    (Likeness.tracking ⟨number, hnumber, last.events, titles⟩).Ended
      (fun a b => b = Option.map (Operand.renumber number) a)
      ((Evaluation.commands (Evaluation.evaluate rounds depth) scope (nodes ++ others) >>=
        fun _ => pure none).run ⟨forest, #[], titles'⟩)
      ((Evaluation.commands (Evaluation.evaluate rounds depth) scope
        (others.map (Node.renumber number)) >>= fun _ => pure none).run
          ⟨last.forest, #[], titles⟩) := by
  have hfirst := Evaluation.tracks_commands
    (Evaluation.evaluate_tracksOn ⟨number, hnumber, #[], titles⟩ rounds depth) scope nodes
    ⟨forest, #[], titles'⟩ ⟨forest, #[], titles⟩ ⟨hforest.symm, rfl, rfl, htexts⟩
  rw [hnodes, h] at hfirst
  cases hrun : (Evaluation.commands (Evaluation.evaluate rounds depth) scope nodes).run
    ⟨forest, #[], titles'⟩ with
  | mk result between =>
    rw [hrun] at hfirst
    cases hfirst with
    | done _ himage =>
      rw [Evaluation.run_bind, Evaluation.run_commands_append _ hrun, ← Evaluation.run_bind]
      have hrest : Evaluation.Tracks ⟨number, hnumber, last.events, titles⟩
          (Option.map (Operand.renumber number))
          (Evaluation.commands (Evaluation.evaluate rounds depth) scope others >>=
            fun _ => pure none)
          (Evaluation.commands (Evaluation.evaluate rounds depth) scope
            (others.map (Node.renumber number)) >>= fun _ => pure none) :=
        (Evaluation.tracks_commands (Evaluation.evaluate_tracksOn _ rounds depth) scope
          others).next fun _ => Likeness.relates_pure rfl
      refine hrest between ⟨last.forest, #[], titles⟩ ⟨himage.forest, ?_, rfl, himage.texts⟩
      rw [himage.events, Array.empty_append, Array.append_empty]

end LevelScript

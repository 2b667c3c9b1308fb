import LevelScript.Command
import LevelScript.Proofs.Command.Path

set_option autoImplicit false

namespace LevelScript.Command

variable {titles : Titles} {folder : Folder} {path : String} {instructions : List String}

def Loads (folder : Folder) (path text : String) : Prop :=
  ∃ bytes chars, folder.read path = .ok bytes ∧ Text.decodeUtf8 bytes = .ok chars ∧
    text = String.ofList (Text.unifyNewlines chars)

def evaluated (titles : Titles) (program : Node) : Except Stop (Option Operand) × World :=
  (Evaluation.evaluate Session.maxRounds Session.maxDepth program Session.start.root).run
    ⟨Session.start.forest, #[], titles⟩

/-- The source is read, parsed and evaluated to its end, and its instructions are generated. -/
inductive Completes (titles : Titles) (folder : Folder) (instructions : List String)
    (path : String) : Prop
  | intro {text : String} {program : Node} {state : ParseState Lexer} {result : Option Operand}
      {last : World} {generated : List String} (loads : Loads folder path text)
      (parses : Construct.program.parse 0 (Text.removeComments text) = .ok (program, state))
      (ends : evaluated titles program = (.ok result, last))
      (generates : program.generate last.forest instructions = .ok generated)

/-- The stages at which the command can stop. A return outside of a function is one of the reasons
to stop an evaluation. -/
inductive Stops (titles : Titles) (folder : Folder) (instructions : List String) :
    List String → Prop
  | noArgument : Stops titles folder instructions []
  | unreadable {path : String} {rest : List String} {cause : FileFault}
      (read : folder.read path = .error cause) : Stops titles folder instructions (path :: rest)
  | undecodable {path : String} {rest : List String} {bytes : Text.Bytes} {cause : Text.Utf8Fault}
      (read : folder.read path = .ok bytes) (decode : Text.decodeUtf8 bytes = .error cause) :
      Stops titles folder instructions (path :: rest)
  | rejected {path text : String} {rest : List String} {fault : SourceFault}
      (loads : Loads folder path text)
      (parses : Construct.program.parse 0 (Text.removeComments text) = .error fault) :
      Stops titles folder instructions (path :: rest)
  | halted {path text : String} {rest : List String} {program : Node} {state : ParseState Lexer}
      {reason : Stop} {last : World} (loads : Loads folder path text)
      (parses : Construct.program.parse 0 (Text.removeComments text) = .ok (program, state))
      (ends : evaluated titles program = (.error reason, last)) :
      Stops titles folder instructions (path :: rest)
  | ungenerated {path text : String} {rest : List String} {program : Node}
      {state : ParseState Lexer} {result : Option Operand} {last : World} {cause : Fault}
      (loads : Loads folder path text)
      (parses : Construct.program.parse 0 (Text.removeComments text) = .ok (program, state))
      (ends : evaluated titles program = (.ok result, last))
      (generates : program.generate last.forest instructions = .error cause) :
      Stops titles folder instructions (path :: rest)

theorem completes_or_stops (titles : Titles) (folder : Folder) (instructions : List String)
    (path : String) (rest : List String) :
    Completes titles folder instructions path ∨ Stops titles folder instructions (path :: rest) := by
  cases hread : folder.read path with
  | error cause => exact .inr (.unreadable hread)
  | ok bytes =>
  cases hdecode : Text.decodeUtf8 bytes with
  | error cause => exact .inr (.undecodable hread hdecode)
  | ok chars =>
  have hloads : Loads folder path (String.ofList (Text.unifyNewlines chars)) :=
    ⟨bytes, chars, hread, hdecode, rfl⟩
  cases hparse : Construct.program.parse 0
      (Text.removeComments (String.ofList (Text.unifyNewlines chars))) with
  | error fault => exact .inr (.rejected hloads hparse)
  | ok parsed =>
  cases hends : evaluated titles parsed.1 with
  | mk ending last =>
  cases ending with
  | error reason => exact .inr (.halted hloads hparse hends)
  | ok result =>
  cases hgenerates : parsed.1.generate last.forest instructions with
  | error cause => exact .inr (.ungenerated hloads hparse hends hgenerates)
  | ok generated => exact .inl ⟨hloads, hparse, hends, hgenerates⟩

theorem Loads.load {text : String} (h : Loads folder path text) :
    load (folder.read path) = .ok text := by
  obtain ⟨bytes, chars, hread, hdecode, rfl⟩ := h
  simp only [Command.load, hread, hdecode]

theorem Loads.parse {text : String} {program : Node} {state : ParseState Lexer}
    (h : Loads folder path text)
    (hparse : Construct.program.parse 0 (Text.removeComments text) = .ok (program, state)) :
    parse path (folder.read path) = .ok program := by
  rw [Command.parse, h.load]
  dsimp only
  rw [hparse]

theorem session_evaluate {program : Node} {ended : Except Stop (Option Operand)} {last : World}
    (h : evaluated titles program = (ended, last)) :
    Session.start.evaluate titles program =
      (.of last.forest ended, last.events.toList, { Session.start with forest := last.forest }) := by
  rw [evaluated] at h
  rw [Session.evaluate, h]

theorem evaluate_of_ok {program : Node} {result : Option Operand} {last : World}
    (h : evaluated titles program = (.ok result, last)) :
    evaluate titles program = .ok (last.events.toList, last.forest) := by
  rw [evaluate, session_evaluate h, Ending.of]

theorem evaluate_of_error {program : Node} {reason : Stop} {last : World}
    (h : evaluated titles program = (.error reason, last)) :
    ∃ halt, evaluate titles program = .error halt := by
  rw [evaluate, session_evaluate h]
  cases reason <;> exact ⟨_, rfl⟩

theorem Completes.respond (h : Completes titles folder instructions path) :
    ∃ events, respond titles path (folder.read path) instructions = .ok (events, instructions) := by
  obtain ⟨hloads, hparse, hends, hgenerates⟩ := h
  simp only [Command.respond, hloads.parse hparse, evaluate_of_ok hends, bind, Except.bind]
  exact ⟨_, rfl⟩

theorem Stops.respond {rest : List String}
    (h : Stops titles folder instructions (path :: rest)) :
    ∃ halt, respond titles path (folder.read path) instructions = .error halt := by
  cases h with
  | unreadable hread => exact ⟨_, by rw [hread]; rfl⟩
  | undecodable hread hdecode =>
    simp only [Command.respond, Command.parse, load, hread, hdecode]
    exact ⟨_, rfl⟩
  | rejected hloads hparse =>
    rename_i text fault
    simp only [Command.respond, Command.parse, hloads.load, hparse]
    cases fault <;> exact ⟨_, rfl⟩
  | halted hloads hparse hends =>
    obtain ⟨halt, hhalt⟩ := evaluate_of_error hends
    simp only [Command.respond, hloads.parse hparse, hhalt, bind, Except.bind]
    exact ⟨_, rfl⟩
  | ungenerated _ _ _ hgenerates => cases hgenerates

theorem completes_iff : Completes titles folder instructions path ↔
    (respond titles path (folder.read path) instructions).isOk = true := by
  constructor
  · intro h
    obtain ⟨events, hevents⟩ := h.respond
    rw [hevents]
    rfl
  · intro hok
    refine (completes_or_stops titles folder instructions path []).resolve_right fun hstops => ?_
    obtain ⟨halt, hhalt⟩ := hstops.respond
    rw [hhalt] at hok
    cases hok

theorem Stops.run {arguments : List String} (h : Stops titles folder instructions arguments) :
    (run titles arguments folder instructions).folder = folder ∧
      (run titles arguments folder instructions).instructions = instructions := by
  cases arguments with
  | nil => exact ⟨rfl, rfl⟩
  | cons path rest =>
    obtain ⟨halt, hhalt⟩ := h.respond
    rw [Command.run, hhalt]
    exact ⟨rfl, rfl⟩

def listing (instructions : List String) : Text.Bytes :=
  Text.encodeUtf8 (Listing.render instructions)

theorem Completes.run (h : Completes titles folder instructions path) (rest : List String) :
    (run titles (path :: rest) folder instructions).instructions = instructions ∧
    ((∃ place, folder.Opens (listingPath path) place ∧
      (run titles (path :: rest) folder instructions).folder =
        folder.put place (listing instructions)) ∨
    (∀ place, ¬ folder.Opens (listingPath path) place) ∧
      (run titles (path :: rest) folder instructions).folder = folder) := by
  obtain ⟨events, hevents⟩ := h.respond
  rw [Command.run, hevents]
  dsimp only
  rcases folder.write_cases (listingPath path) (listing instructions) with
    ⟨place, hopens, hwrite⟩ | ⟨hopens, cause, hwrite⟩
  · rw [listing] at hwrite
    rw [hwrite]
    exact ⟨rfl, .inl ⟨place, hopens, rfl⟩⟩
  · rw [listing] at hwrite
    rw [hwrite]
    exact ⟨rfl, .inr ⟨hopens, rfl⟩⟩

theorem listingPath_eq {root extension : List Char} (h : Splits path.toList root extension) :
    listingPath path = String.ofList root ++ ".asm" := by
  rw [listingPath, stem, ← splits_iff.1 ⟨extension, h⟩]

/-- The command changes a file only if its first argument names a source that completes. It writes
one listing then, of the instructions that it was started with, whatever the source is, to the path
that has the root of the source and the extension of listings. A command that stops leaves all files
as they were, and no command leaves other instructions than there were. -/
theorem writes_listing_only (titles : Titles) (arguments : List String) (folder : Folder)
    (instructions : List String) :
    let response := run titles arguments folder instructions
    response.instructions = instructions ∧
    ((∃ place, response.folder.file? place ≠ folder.file? place) →
      ∃ path rest, arguments = path :: rest ∧ Completes titles folder instructions path) ∧
    (∀ path rest, arguments = path :: rest → Completes titles folder instructions path →
      ∃ root extension, Splits path.toList root extension ∧
        ((∃ place, folder.Opens (String.ofList root ++ ".asm") place ∧
            response.folder.file? place = some (listing instructions) ∧
            ∀ other, other ≠ place → response.folder.file? other = folder.file? other) ∨
          (∀ place, ¬ folder.Opens (String.ofList root ++ ".asm") place) ∧
            response.folder = folder)) ∧
    (Stops titles folder instructions arguments → response.folder = folder) := by
  intro response
  refine ⟨?_, ?_, ?_, fun hstops => hstops.run.1⟩
  · cases arguments with
    | nil => rfl
    | cons path rest =>
      rcases completes_or_stops titles folder instructions path rest with hcompletes | hstops
      · exact (hcompletes.run rest).1
      · exact hstops.run.2
  · rintro ⟨place, hchanged⟩
    cases arguments with
    | nil => exact (hchanged rfl).elim
    | cons path rest =>
      refine ⟨path, rest, rfl,
        (completes_or_stops titles folder instructions path rest).resolve_right ?_⟩
      intro hstops
      exact hchanged (congrArg (Folder.file? · place) hstops.run.1)
  · rintro path rest rfl hcompletes
    obtain ⟨extension, hsplits⟩ := stemChars_splits path.toList
    refine ⟨_, extension, hsplits, ?_⟩
    rw [← listingPath_eq hsplits]
    rcases (hcompletes.run rest).2 with ⟨place, hopens, hafter⟩ | hclosed
    · refine .inl ⟨place, hopens, ?_, fun other hother => ?_⟩
      · rw [hafter, Folder.file?_put, if_pos rfl]
      · rw [hafter, Folder.file?_put, if_neg hother]
    · exact .inr hclosed

def gameFolder (source : String) : Folder :=
  ⟨["home"], [(["srv", "notes"], []), (["srv", "cave.v2.level"], Text.encodeUtf8 source)]⟩

/-- A source that completes is listed beside it, and one that returns at the top changes nothing. -/
theorem cave_listed :
    let folder := gameFolder "say(1);"
    let after := (run .numbered ["/srv/cave.v2.level"] folder []).folder
    (Completes .numbered folder [] "/srv/cave.v2.level" ∧
      after.file? ["srv", "cave.v2.asm"] = some (listing []) ∧
      ∀ other, other ≠ ["srv", "cave.v2.asm"] → after.file? other = folder.file? other) ∧
    Stops .numbered (gameFolder "return 1;") [] ["../srv/cave.v2.level"] ∧
      (run .numbered ["../srv/cave.v2.level"] (gameFolder "return 1;") []).folder =
        gameFolder "return 1;" := by
  intro folder after
  have hcompletes : Completes .numbered folder [] "/srv/cave.v2.level" :=
    completes_iff.2 (by decide +kernel)
  have hstops : Stops .numbered (gameFolder "return 1;") [] ["../srv/cave.v2.level"] :=
    (completes_or_stops _ _ _ _ []).resolve_left fun hcompletes =>
      absurd (completes_iff.1 hcompletes) (by decide +kernel)
  have hsplits : Splits "/srv/cave.v2.level".toList "/srv/cave.v2".toList ".level".toList :=
    @Splits.dotted "/srv/cave.v2".toList "level".toList (by decide) (by decide)
      ⟨'c', by decide, by decide⟩
  have hopens : folder.Opens "/srv/cave.v2.asm" ["srv", "cave.v2.asm"] := ⟨.vacant _, rfl, rfl⟩
  refine ⟨⟨hcompletes, ?_⟩, hstops, (writes_listing_only _ _ _ _).2.2.2 hstops⟩
  obtain ⟨root, extension, hroot, hwritten⟩ :=
    (writes_listing_only .numbered ["/srv/cave.v2.level"] folder []).2.2.1 _ _ rfl hcompletes
  rw [splits_iff.1 ⟨_, hroot⟩, ← splits_iff.1 ⟨_, hsplits⟩] at hwritten
  rcases hwritten with ⟨place, hplace, hlisting, hothers⟩ | ⟨hnone, _⟩
  · cases hplace.unique hopens
    exact ⟨hlisting, hothers⟩
  · exact (hnone _ hopens).elim

theorem extension_of_opens {root extension : List Char} {place : Path}
    (hsplits : Splits path.toList root extension) (hsource : folder.Opens path place)
    (hlisting : folder.Opens (listingPath path) place) : extension = ".asm".toList := by
  -- the two paths have one beginning, so their places are told apart by their last names
  obtain ⟨part, hpart, hroot⟩ := exists_folderPart root
  have hname : '/' ∉ lastName root ++ extension := by
    rw [List.mem_append, not_or]
    exact ⟨slash_notMem_lastName root, hsplits.slash_notMem⟩
  have hname' : '/' ∉ lastName root ++ ".asm".toList := by
    rw [List.mem_append, not_or]
    exact ⟨slash_notMem_lastName root, by decide⟩
  have hpath : path = String.ofList (part ++ (lastName root ++ extension)) := by
    rw [← List.append_assoc, ← hroot, ← hsplits.joined, String.ofList_toList]
  have htarget : listingPath path = String.ofList (part ++ (lastName root ++ ".asm".toList)) := by
    rw [listingPath_eq hsplits, ← List.append_assoc, ← hroot, String.ofList_append,
      String.ofList_toList]
  rw [htarget] at hlisting
  rw [hpath] at hsource
  obtain ⟨above, hplace, hplace'⟩ := hsource.beside hlisting hpart hname hname'
  have hnames := List.singleton_inj.1 (List.append_cancel_left (hplace.symm.trans hplace'))
  exact List.append_cancel_left (String.ofList_injective hnames)

/-- The source is overwritten when it completes and has the extension of listings, and keeps its
content in every other case. -/
theorem source_overwritten_iff_listing (titles : Titles) (folder : Folder)
    (instructions : List String) (path : String) (rest : List String) (place : Path)
    (h : folder.locate path = .ok (.file place)) :
    let after := (run titles (path :: rest) folder instructions).folder
    (∀ root, Splits path.toList root ".asm".toList → Completes titles folder instructions path →
      after.file? place = some (listing instructions)) ∧
    ((∀ root, ¬ Splits path.toList root ".asm".toList) ∨
        Stops titles folder instructions (path :: rest) →
      after.file? place = folder.file? place) := by
  dsimp only
  have hopens : folder.Opens path place := ⟨_, h, rfl⟩
  constructor
  · intro root hsplits hcompletes
    have htarget : listingPath path = path := by
      rw [listingPath_eq hsplits, ← String.ofList_toList (s := ".asm"), ← String.ofList_append,
        ← hsplits.joined, String.ofList_toList]
    rcases (hcompletes.run rest).2 with ⟨written, hwritten, hafter⟩ | ⟨hclosed, _⟩
    · rw [htarget] at hwritten
      rw [hafter, Folder.file?_put, if_pos (hopens.unique hwritten)]
    · rw [htarget] at hclosed
      exact (hclosed place hopens).elim
  · rintro (hextension | hstops)
    · obtain ⟨extension, hsplits⟩ := stemChars_splits path.toList
      rcases completes_or_stops titles folder instructions path rest with hcompletes | hstops
      · rcases (hcompletes.run rest).2 with ⟨written, hwritten, hafter⟩ | ⟨_, hafter⟩
        · rw [hafter, Folder.file?_put, if_neg]
          rintro rfl
          cases extension_of_opens hsplits hopens hwritten
          exact hextension _ hsplits
        · rw [hafter]
      · exact congrArg (Folder.file? · place) hstops.run.1
    · exact congrArg (Folder.file? · place) hstops.run.1

/-- A source with the extension of listings that completes is lost, and one that is rejected stays. -/
theorem cave_overwritten :
    let folder : Folder := ⟨[], [(["cave.asm"], Text.encodeUtf8 "say(1);")]⟩
    let broken : Folder := ⟨[], [(["cave.asm"], Text.encodeUtf8 "say(1;")]⟩
    (Completes .numbered folder [] "cave.asm" ∧
      (run .numbered ["cave.asm"] folder []).folder.file? ["cave.asm"] = some (listing [])) ∧
    Stops .numbered broken [] ["cave.asm"] ∧
      (run .numbered ["cave.asm"] broken []).folder.file? ["cave.asm"] =
        broken.file? ["cave.asm"] := by
  intro folder broken
  have hcompletes : Completes .numbered folder [] "cave.asm" :=
    completes_iff.2 (by decide +kernel)
  have hstops : Stops .numbered broken [] ["cave.asm"] :=
    (completes_or_stops _ _ _ _ []).resolve_left fun hcompletes =>
      absurd (completes_iff.1 hcompletes) (by decide +kernel)
  have hsplits : Splits "cave.asm".toList "cave".toList ".asm".toList :=
    @Splits.dotted "cave".toList "asm".toList (by decide) (by decide) ⟨'c', by decide, by decide⟩
  refine ⟨⟨hcompletes, ?_⟩, hstops, ?_⟩
  · exact (source_overwritten_iff_listing .numbered folder [] "cave.asm" [] ["cave.asm"] rfl).1 _
      hsplits hcompletes
  · exact (source_overwritten_iff_listing .numbered broken [] "cave.asm" [] ["cave.asm"] rfl).2
      (.inr hstops)

/-- The command does not keep every source: this one has another content after it. -/
theorem asm_source_lost :
    let folder : Folder := ⟨[], [(["a.asm"], Text.encodeUtf8 "say(1);")]⟩
    let response := run .numbered ["a.asm"] folder []
    folder.locate "a.asm" = .ok (.file ["a.asm"]) ∧ response.exit = .code 0 ∧
      response.folder.file? ["a.asm"] ≠ folder.file? ["a.asm"] :=
  ⟨rfl, by decide +kernel, by decide +kernel⟩

end LevelScript.Command

import LevelScript.Proofs.Parser.Expression

set_option autoImplicit false

namespace LevelScript

namespace Parser

theorem variableDeclaration_sound (bound : Nat) :
    Sound (variableDeclaration bound) .variableDeclaration := by
  intro c d n m node h
  rw [variableDeclaration, current_ok] at h
  generalize ht : c.token = t at h
  cases t with
  | identifier name =>
    simp only [↓fresh_ok, ↓advance_ok, ↓symbol_ok, ↓typeName_ok, bind_ok, pure_ok] at h
    obtain ⟨e, he, h1, f, hf, word, type, h2, hw, g, hg, h3, i, hi, value, j, k, hv, h4, l, hl,
      rfl, rfl, rfl⟩ := h
    obtain ⟨u, hu, hr⟩ := expression_sound bound i j _ k value hv
    exact ⟨_, .cons ht he (.cons h1 hf (.cons h2 hg (.cons h3 hi (hu.trans (.last h4 hl))))),
      .variableDeclaration hw hr⟩
  | _ => exact absurd h (fail_ok _ _ _)

theorem parameter_sound : Sound parameter .parameter := by
  intro c d n m node h
  rw [parameter, name_ok] at h
  simp only [↓symbol_ok, ↓typeName_ok, ↓fresh_ok, pure_ok] at h
  obtain ⟨name, h1, e, he, h2, f, hf, word, type, h3, hw, g, hg, rfl, rfl, rfl⟩ := h
  exact ⟨_, .cons h1 he (.cons h2 hf (.last h3 hg)), .parameter hw⟩

theorem resultType_sound (c d : Cursor) (n m : Nat) (result : Option TypeName)
    (h : resultType ⟨c, n⟩ = .ok (result, ⟨d, m⟩)) :
    ∃ tokens, c.Passes tokens d ∧ ReadsType tokens result ∧ n = m := by
  rw [resultType, current_ok] at h
  simp only [ite_ok, ↓advance_ok, ↓typeName_ok, pure_ok] at h
  rcases h with ⟨h1, e, he, word, type, h2, hw, f, hf, rfl, rfl, rfl⟩ | ⟨_, rfl, rfl, rfl⟩
  · exact ⟨_, .cons h1 he (.last h2 hf), .some hw, rfl⟩
  · exact ⟨[], rfl, .none, rfl⟩

/-- Every success of `p` is the reading of a command, and leaves no `else` that it could take. -/
def SoundCommand (p : Parser Cursor Node) : Prop :=
  ∀ (c d : Cursor) (n m : Nat) (node : Node), p ⟨c, n⟩ = .ok (node, ⟨d, m⟩) →
    (∃ tokens, c.Passes tokens d ∧ Reads .command n tokens [node] m) ∧
      (node.dangles = true → d.token ≠ .keyword .elseWord)

theorem commands_sound {command : Parser Cursor Node} (hc : SoundCommand command) (bound : Nat)
    (c d : Cursor) (n m : Nat) (nodes : List Node)
    (h : commands command bound ⟨c, n⟩ = .ok (nodes, ⟨d, m⟩)) :
    ∃ tokens, c.Passes tokens d ∧ Reads .commands n tokens nodes m := by
  induction bound generalizing c n nodes with
  | zero => exact absurd h (fail_ok _ _ _)
  | succ bound ih =>
    rw [commands, current_ok] at h
    by_cases hbrace : c.token = .symbol .rightBrace
    · rw [hbrace] at h
      obtain ⟨rfl, rfl, rfl⟩ := (pure_ok ..).1 h
      exact ⟨[], rfl, .commandsEnd⟩
    by_cases hend : c.token = .endOfInput
    · rw [hend] at h
      obtain ⟨rfl, rfl, rfl⟩ := (pure_ok ..).1 h
      exact ⟨[], rfl, .commandsEnd⟩
    by_cases hskip : c.token = .symbol .semicolon
    · rw [hskip] at h
      obtain ⟨e, he, h⟩ := (advance_ok ..).1 h
      obtain ⟨u, hu, hr⟩ := ih e n nodes h
      exact ⟨_, .cons hskip he hu, .commandsSkip hr⟩
    · simp only [bind_ok, pure_ok] at h
      obtain ⟨first, e, k, hf, others, f, j, ho, rfl, rfl, rfl⟩ := h
      obtain ⟨u, hu, hr⟩ := (hc c e n k first hf).1
      obtain ⟨v, hv, hs⟩ := ih e k others ho
      refine ⟨u ++ v, hu.trans hv, .commandsNext ?_ hr hs⟩
      rintro rfl
      exact hskip hu.token_eq

theorem blockOf_sound {command : Parser Cursor Node} (hc : SoundCommand command) (bound : Nat) :
    Sound (blockOf bound command) .block := by
  intro c d n m node h
  rw [blockOf, symbol_ok] at h
  simp only [↓symbol_ok, ↓fresh_ok, bind_ok, pure_ok] at h
  obtain ⟨h1, e, he, body, f, k, hb, h2, g, hg, rfl, rfl, rfl⟩ := h
  obtain ⟨u, hu, hr⟩ := commands_sound hc bound e f n k body hb
  exact ⟨_, .cons h1 he (hu.trans (.last h2 hg)), .block hr⟩

theorem conditionalOf_sound {command : Parser Cursor Node} (hc : SoundCommand command)
    (bound : Nat) :
    SoundCommand (conditionalOf bound command) := by
  intro c d n m node h
  rw [conditionalOf, keyword_ok] at h
  obtain ⟨h1, e, he, h⟩ := h
  rw [symbol_ok] at h
  simp only [↓symbol_ok, ↓current_ok, bind_ok] at h
  obtain ⟨h2, f, hf, condition, g, k, hx, h3, i, hi, positive, j, l, hp, h⟩ := h
  obtain ⟨u, hu, hr⟩ := expression_sound bound f g n k condition hx
  obtain ⟨⟨v, hv, hs⟩, helse⟩ := hc i j k l positive hp
  rw [ite_ok] at h
  rcases h with ⟨h4, h⟩ | ⟨h4, h⟩
  · rw [advance_ok] at h
    simp only [↓fresh_ok, bind_ok, pure_ok] at h
    obtain ⟨a, ha, negative, b, o, hn, rfl, rfl, rfl⟩ := h
    obtain ⟨⟨w, hw, ht⟩, hlast⟩ := hc a b l o negative hn
    have hfull : positive.dangles = false := by
      cases hd : positive.dangles with
      | true => exact absurd h4 (helse hd)
      | false => rfl
    exact ⟨⟨_, .cons h1 he (.cons h2 hf (hu.trans (.cons h3 hi (hv.trans (.cons h4 ha hw))))),
      .conditionalElse hr hs hfull ht⟩, hlast⟩
  · simp only [↓fresh_ok, pure_ok] at h
    obtain ⟨rfl, rfl, rfl⟩ := h
    exact ⟨⟨_, .cons h1 he (.cons h2 hf (hu.trans (.cons h3 hi hv))), .conditional hr hs⟩,
      fun _ => h4⟩

theorem loopOf_sound {command : Parser Cursor Node} (hc : SoundCommand command) (bound : Nat) :
    SoundCommand (loopOf bound command) := by
  intro c d n m node h
  rw [loopOf, keyword_ok] at h
  obtain ⟨h1, e, he, h⟩ := h
  rw [symbol_ok] at h
  simp only [↓symbol_ok, ↓fresh_ok, bind_ok, pure_ok] at h
  obtain ⟨h2, f, hf, condition, g, k, hx, h3, i, hi, body, j, l, hb, rfl, rfl, rfl⟩ := h
  obtain ⟨u, hu, hr⟩ := expression_sound bound f g n k condition hx
  obtain ⟨⟨v, hv, hs⟩, helse⟩ := hc i j k l body hb
  exact ⟨⟨_, .cons h1 he (.cons h2 hf (hu.trans (.cons h3 hi hv))), .loop hr hs⟩, helse⟩

theorem result_sound (bound : Nat) : SoundCommand (result bound) := by
  intro c d n m node h
  rw [result, keyword_ok] at h
  obtain ⟨h1, e, he, h⟩ := h
  rw [current_ok, ite_ok] at h
  rcases h with ⟨h2, h⟩ | ⟨_, h⟩
  · obtain ⟨hd, rfl, rfl⟩ := (leaf_ok (Node.result · none) ..).1 h
    exact ⟨⟨_, .cons h1 he (.last h2 hd), .resultNone⟩, nofun⟩
  · simp only [↓symbol_ok, ↓fresh_ok, bind_ok, pure_ok] at h
    obtain ⟨value, f, k, hv, h2, g, hg, rfl, rfl, rfl⟩ := h
    obtain ⟨u, hu, hr⟩ := expression_sound bound e f n k value hv
    exact ⟨⟨_, .cons h1 he (hu.trans (.last h2 hg)), .result hr⟩, nofun⟩

theorem action_sound (bound : Nat) (c d : Cursor) (n m : Nat) (node : Node) (word : Keyword)
    (hw : word ∈ Keyword.actions) (hc : c.token = .keyword word)
    (h : action bound ⟨c, n⟩ = .ok (node, ⟨d, m⟩)) :
    (∃ tokens, c.Passes tokens d ∧ Reads .command n tokens [node] m) ∧
      (node.dangles = true → d.token ≠ .keyword .elseWord) := by
  rw [action, current_ok, advance_ok] at h
  obtain ⟨e, he, h⟩ := h
  rw [symbol_ok] at h
  simp only [↓symbol_ok, ↓fresh_ok, bind_ok, pure_ok] at h
  obtain ⟨h2, f, hf, arguments, g, k, ha, h3, i, hi, rfl, rfl, rfl⟩ := h
  obtain ⟨a, hp, hr⟩ := commaList_sound (i := .expression) (expression_sound bound) bound _ f g n k
    arguments ha
  rw [hc]
  refine ⟨⟨_, .cons hc he (.cons h2 hf ?_), .action hw hr⟩, nofun⟩
  simpa using hp.trans (.last h3 hi)

theorem assignment_ok (bound : Nat) (name : String) (c d : Cursor) (n m : Nat) (node : Node)
    (h : assignment bound name ⟨c, n⟩ = .ok (node, ⟨d, m⟩)) :
    ∃ e value k, c.Passes (.symbol .assign :: (e ++ [.symbol .semicolon])) d ∧
      Reads .expression n e [value] k ∧
      node = .assignment (k + 2) (.identifier (k + 1) name) value ∧ m = k + 2 := by
  rw [assignment, symbol_ok] at h
  simp only [↓symbol_ok, ↓fresh_ok, bind_ok, pure_ok] at h
  obtain ⟨h1, f, hf, value, g, k, hv, h2, i, hi, rfl, rfl, rfl⟩ := h
  obtain ⟨u, hu, hr⟩ := expression_sound bound f g n k value hv
  exact ⟨u, value, k, .cons h1 hf (hu.trans (.last h2 hi)), hr, rfl, rfl⟩

theorem namedCommand_sound (bound : Nat) (c d : Cursor) (n m : Nat) (node : Node) (name : String)
    (hc : c.token = .identifier name) (h : namedCommand bound name ⟨c, n⟩ = .ok (node, ⟨d, m⟩)) :
    (∃ tokens, c.Passes tokens d ∧ Reads .command n tokens [node] m) ∧
      (node.dangles = true → d.token ≠ .keyword .elseWord) := by
  rw [namedCommand, advance_ok] at h
  obtain ⟨e, he, h⟩ := h
  rw [current_ok] at h
  generalize ht : e.token = t at h
  cases t with
  | symbol mark =>
    cases mark with
    | leftParen =>
      simp only [bind_ok, ↓current_ok, ite_ok, ↓advance_ok, pure_ok] at h
      obtain ⟨call, f, k, hcall, h⟩ := h
      rcases h with ⟨h2, g, hg, rfl, rfl, rfl⟩ | ⟨_, h⟩
      · obtain ⟨a, arguments, j, hp, hr, rfl, rfl⟩ :=
          callOf_sound (expression_sound bound) bound name e f n _ call hcall
        refine ⟨⟨_, .cons hc he ?_, .callCommand hr⟩, nofun⟩
        simpa using hp.trans (.last h2 hg)
      · exact absurd h (fail_ok _ _ _)
    | semicolon =>
      obtain ⟨hd, rfl, rfl⟩ := (leaf_ok (Node.call · name []) ..).1 h
      exact ⟨⟨_, .cons hc he (.last ht hd), .bareCall⟩, nofun⟩
    | assign =>
      obtain ⟨u, value, k, hp, hr, rfl, rfl⟩ := assignment_ok bound name e d n m node h
      exact ⟨⟨_, .cons hc he hp, .assignment hr⟩, nofun⟩
    | leftBracket =>
      change elementAssignment bound name ⟨e, n⟩ = _ at h
      rw [elementAssignment, symbol_ok] at h
      simp only [↓symbol_ok, bind_ok] at h
      obtain ⟨h1, f, hf, index, g, k, hi, h2, i, hg, h⟩ := h
      obtain ⟨u, hu, hr⟩ := expression_sound bound f g n k index hi
      obtain ⟨v, value, j, hp, hs, rfl, rfl⟩ := assignment_ok bound name i d k m node h
      exact ⟨⟨_, .cons hc he (.cons h1 hf (hu.trans (.cons h2 hg hp))),
        .elementAssignment hr hs⟩, nofun⟩
    | _ => exact absurd h (fail_ok _ _ _)
  | _ => exact absurd h (fail_ok _ _ _)

theorem commandOver_sound {command : Parser Cursor Node} (hc : SoundCommand command) (bound : Nat) :
    SoundCommand (commandOver bound command) := by
  intro c d n m node h
  rw [commandOver, current_ok] at h
  generalize ht : c.token = t at h
  cases t with
  | identifier name =>
    rw [upcoming_ok] at h
    obtain ⟨e, he, h⟩ := h
    rw [ite_ok] at h
    rcases h with ⟨_, h⟩ | ⟨_, h⟩
    · obtain ⟨u, hu, hr⟩ := variableDeclaration_sound bound c d n m node h
      exact ⟨⟨u, hu, .declared hr⟩, by cases hr; nofun⟩
    · exact namedCommand_sound bound c d n m node name ht h
  | symbol mark =>
    cases mark with
    | semicolon =>
      obtain ⟨hd, rfl, rfl⟩ := (leaf_ok Node.skip ..).1 h
      exact ⟨⟨_, .last ht hd, .skip⟩, nofun⟩
    | leftBrace =>
      obtain ⟨u, hu, hr⟩ := blockOf_sound hc bound c d n m node h
      exact ⟨⟨u, hu, .blocked hr⟩, by cases hr; nofun⟩
    | _ => exact absurd h (fail_ok _ _ _)
  | keyword word =>
    cases word with
    | ifWord => exact conditionalOf_sound hc bound c d n m node h
    | untilWord => exact loopOf_sound hc bound c d n m node h
    | returnWord => exact result_sound bound c d n m node h
    | move | attack | gather | use | say | wait =>
      exact action_sound bound c d n m node _ (by decide) ht h
    | _ => exact absurd h (fail_ok _ _ _)
  | _ => exact absurd h (fail_ok _ _ _)

theorem command_sound (bound : Nat) : SoundCommand (command bound) := by
  induction bound with
  | zero =>
    intro c d n m node h
    exact absurd h (fail_ok _ _ _)
  | succ bound ih => exact commandOver_sound ih bound

theorem functionDeclaration_sound (bound : Nat) :
    Sound (functionDeclaration bound) .functionDeclaration := by
  intro c d n m node h
  rw [functionDeclaration, keyword_ok] at h
  obtain ⟨h1, e, he, h⟩ := h
  rw [name_ok] at h
  simp only [↓symbol_ok, ↓fresh_ok, bind_ok, pure_ok] at h
  obtain ⟨name, h2, f, hf, h3, g, hg, parameters, i, k, hp, type, j, l, ht, body, a, o, hb,
    rfl, rfl, rfl⟩ := h
  obtain ⟨u, hu, hr⟩ :=
    commaList_sound (i := .parameter) parameter_sound bound _ g i n k parameters hp
  obtain ⟨v, hv, hs, rfl⟩ := resultType_sound i j k l type ht
  obtain ⟨w, hw, hq⟩ := blockOf_sound (command_sound bound) bound j a k o body hb
  refine ⟨_, .cons h1 he (.cons h2 hf (.cons h3 hg ?_)), .functionDeclaration hr hs hq⟩
  simpa using hu.trans (hv.trans hw)

theorem members_sound (inner bound : Nat) (c d : Cursor) (n m : Nat) (nodes : List Node)
    (h : members inner bound ⟨c, n⟩ = .ok (nodes, ⟨d, m⟩)) :
    ∃ tokens, c.Passes tokens d ∧ Reads .members n tokens nodes m := by
  induction bound generalizing c n nodes with
  | zero => exact absurd h (fail_ok _ _ _)
  | succ bound ih =>
    rw [members, current_ok] at h
    generalize ht : c.token = t at h
    cases t with
    | symbol mark =>
      cases mark with
      | rightBrace =>
        obtain ⟨rfl, rfl, rfl⟩ := (pure_ok ..).1 h
        exact ⟨[], rfl, .membersEnd⟩
      | _ => exact absurd h (fail_ok _ _ _)
    | endOfInput =>
      obtain ⟨rfl, rfl, rfl⟩ := (pure_ok ..).1 h
      exact ⟨[], rfl, .membersEnd⟩
    | identifier name =>
      rw [upcoming_ok] at h
      obtain ⟨e, he, h⟩ := h
      rw [ite_ok] at h
      rcases h with ⟨_, h⟩ | ⟨_, h⟩
      · simp only [bind_ok, pure_ok] at h
        obtain ⟨first, f, k, hf, others, g, j, ho, rfl, rfl, rfl⟩ := h
        obtain ⟨u, hu, hr⟩ := variableDeclaration_sound inner c f n k first hf
        obtain ⟨v, hv, hs⟩ := ih f k others ho
        exact ⟨u ++ v, hu.trans hv, .membersNext (by simp) hr hs⟩
      · exact absurd h (fail_ok _ _ _)
    | keyword word =>
      cases word with
      | func =>
        simp only [bind_ok, pure_ok] at h
        obtain ⟨first, f, k, hf, others, g, j, ho, rfl, rfl, rfl⟩ := h
        obtain ⟨u, hu, hr⟩ := functionDeclaration_sound inner c f n k first hf
        obtain ⟨v, hv, hs⟩ := ih f k others ho
        exact ⟨u ++ v, hu.trans hv, .membersNext (by simp) hr hs⟩
      | _ => exact absurd h (fail_ok _ _ _)
    | _ => exact absurd h (fail_ok _ _ _)

theorem entityDeclaration_sound (bound : Nat) : Sound (entityDeclaration bound) .entity := by
  intro c d n m node h
  rw [entityDeclaration, keyword_ok] at h
  obtain ⟨h1, e, he, h⟩ := h
  rw [name_ok] at h
  simp only [↓symbol_ok, ↓fresh_ok, bind_ok, pure_ok] at h
  obtain ⟨name, h2, f, hf, h3, g, hg, nodes, i, k, hm, h4, j, hj, rfl, rfl, rfl⟩ := h
  obtain ⟨u, hu, hr⟩ := members_sound bound bound g i n k nodes hm
  exact ⟨_, .cons h1 he (.cons h2 hf (.cons h3 hg (hu.trans (.last h4 hj)))), .entity hr⟩

theorem topLevel_sound (bound : Nat) (c d : Cursor) (n m : Nat) (node : Node)
    (h : topLevel bound ⟨c, n⟩ = .ok (node, ⟨d, m⟩)) :
    ∃ category ∈ [Category.functionDeclaration, .entity, .command],
      ∃ tokens, c.Passes tokens d ∧ Reads category n tokens [node] m := by
  rw [topLevel, current_ok] at h
  by_cases hfunc : c.token = .keyword .func
  · rw [hfunc] at h
    exact ⟨_, by simp, functionDeclaration_sound bound c d n m node h⟩
  by_cases hentity : c.token = .keyword .entity
  · rw [hentity] at h
    exact ⟨_, by simp, entityDeclaration_sound bound c d n m node h⟩
  · simp only at h
    exact ⟨_, by simp, (command_sound bound c d n m node h).1⟩

theorem topLevels_sound (inner bound : Nat) (c d : Cursor) (n m : Nat) (nodes : List Node)
    (h : topLevels inner bound ⟨c, n⟩ = .ok (nodes, ⟨d, m⟩)) :
    d.token = .endOfInput ∧ ∃ tokens, c.Passes tokens d ∧ Reads .program n tokens nodes m := by
  induction bound generalizing c n nodes with
  | zero => exact absurd h (fail_ok _ _ _)
  | succ bound ih =>
    rw [topLevels, current_ok, ite_ok] at h
    rcases h with ⟨hend, h⟩ | ⟨_, h⟩
    · obtain ⟨rfl, rfl, rfl⟩ := (pure_ok ..).1 h
      exact ⟨hend, [], rfl, .programEnd⟩
    · simp only [bind_ok, pure_ok] at h
      obtain ⟨first, e, k, hf, others, f, j, ho, rfl, rfl, rfl⟩ := h
      obtain ⟨category, hcategory, u, hu, hr⟩ := topLevel_sound inner c e n k first hf
      obtain ⟨hend, v, hv, hs⟩ := ih e k others ho
      exact ⟨hend, u ++ v, hu.trans hv, .programNext hcategory hr hs⟩

theorem variableDeclaration_complete {limit bound : Nat} (hb : limit < bound + 5) :
    Complete (variableDeclaration bound) .variableDeclaration (fun _ => True) limit := by
  intro c d n m tokens node h hp _ hl
  cases h with
  | @variableDeclaration _ k name word type u value hw hr =>
    obtain ⟨h1, e, he, h2, f, hf, h3, g, hg, h4, i, hi, hp⟩ := hp
    obtain ⟨j, hu, hlast⟩ := (Cursor.passes_append ..).1 hp
    obtain ⟨h5, a, ha, rfl⟩ := (Cursor.passes_cons ..).1 hlast
    have hends : Level.logical.ends j.token := Level.ends_symbol _ h5 (by decide)
    have hlength : u.length < bound := by simp at hl; omega
    rw [variableDeclaration, current_ok, h1]
    simp only [↓fresh_ok, ↓advance_ok, ↓symbol_ok, ↓typeName_ok, bind_ok, pure_ok]
    exact ⟨e, he, h2, f, hf, word, type, h3, hw, g, hg, h4, i, hi, value, j, k,
      expression_complete hlength i j _ k u value hr hu hends (Nat.le_refl _), h5, a, ha,
      rfl, rfl, rfl⟩

theorem parameter_complete (ends : Token → Prop) (limit : Nat) :
    Complete parameter .parameter ends limit := by
  intro c d n m tokens node h hp _ _
  cases h with
  | @parameter _ name word type hw =>
    obtain ⟨h1, e, he, h2, f, hf, h3, g, hg, rfl⟩ := hp
    rw [parameter, name_ok]
    simp only [↓symbol_ok, ↓typeName_ok, ↓fresh_ok, pure_ok]
    exact ⟨name, h1, e, he, h2, f, hf, word, type, h3, hw, g, hg, rfl, rfl, trivial⟩

theorem resultType_complete (c d : Cursor) (n : Nat) (tokens : List Token)
    (result : Option TypeName) (h : ReadsType tokens result) (hp : c.Passes tokens d)
    (hd : d.token ≠ .symbol .colon) : resultType ⟨c, n⟩ = .ok (result, ⟨d, n⟩) := by
  rw [resultType, current_ok]
  cases h with
  | none =>
    obtain rfl := (Cursor.passes_nil ..).1 hp
    rw [if_neg hd]
    exact (pure_ok ..).2 ⟨rfl, rfl, rfl⟩
  | @some word type hw =>
    obtain ⟨h1, e, he, h2, f, hf, rfl⟩ := hp
    rw [if_pos h1, advance_ok]
    simp only [↓typeName_ok, pure_ok]
    exact ⟨e, he, word, type, h2, hw, f, hf, rfl, rfl, trivial⟩

/-- Where a command of at most `limit` tokens stands, and no `else` that it could take after it,
`p` gives its reading. -/
def CompleteCommand (p : Parser Cursor Node) (limit : Nat) : Prop :=
  ∀ (c d : Cursor) (n m : Nat) (tokens : List Token) (node : Node),
    Reads .command n tokens [node] m → c.Passes tokens d →
    (node.dangles = true → d.token ≠ .keyword .elseWord) →
    tokens.length ≤ limit → p ⟨c, n⟩ = .ok (node, ⟨d, m⟩)

theorem commands_else {n m : Nat} {tokens : List Token} {nodes : List Node} {c d : Cursor}
    (h : Reads .commands n tokens nodes m) (hp : c.Passes tokens d)
    (hd : d.token = .symbol .rightBrace) : c.token ≠ .keyword .elseWord := by
  intro helse
  cases h with
  | commandsEnd =>
    obtain rfl := (Cursor.passes_nil ..).1 hp
    simp [helse] at hd
  | commandsSkip => simp [hp.token_eq] at helse
  | commandsNext _ h =>
    obtain ⟨token, rest, rfl, hb⟩ := h.begins rfl
    obtain rfl := hp.token_eq
    rw [helse] at hb
    revert hb
    decide

theorem commands_complete {command : Parser Cursor Node} {limit : Nat}
    (hc : CompleteCommand command limit) (bound : Nat) (c d : Cursor) (n m : Nat)
    (tokens : List Token) (nodes : List Node) (h : Reads .commands n tokens nodes m)
    (hp : c.Passes tokens d) (hd : d.token = .symbol .rightBrace) (hl : tokens.length ≤ limit)
    (hb : tokens.length < bound) :
    commands command bound ⟨c, n⟩ = .ok (nodes, ⟨d, m⟩) := by
  generalize hcategory : Category.commands = category at h
  induction h generalizing c bound with
  | commandsEnd =>
    obtain ⟨bound, rfl⟩ := Nat.exists_eq_add_one_of_ne_zero (Nat.ne_zero_of_lt hb)
    obtain rfl := (Cursor.passes_nil ..).1 hp
    rw [commands, current_ok, hd]
    exact (pure_ok ..).2 ⟨rfl, rfl, rfl⟩
  | commandsSkip _ ih =>
    obtain ⟨bound, rfl⟩ := Nat.exists_eq_add_one_of_ne_zero (Nat.ne_zero_of_lt hb)
    obtain ⟨ht, e, he, hp⟩ := (Cursor.passes_cons ..).1 hp
    simp only [List.length_cons] at hl hb
    rw [commands, current_ok, ht]
    exact (advance_ok ..).2 ⟨e, he, ih bound e hp (by omega) (by omega) rfl⟩
  | @commandsNext n m k u v node nodes hskip hr hs _ ih =>
    obtain ⟨bound, rfl⟩ := Nat.exists_eq_add_one_of_ne_zero (Nat.ne_zero_of_lt hb)
    obtain ⟨e, hu, hv⟩ := (Cursor.passes_append ..).1 hp
    obtain ⟨token, rest, rfl, hbegins⟩ := hr.begins rfl
    simp only [List.length_append, List.length_cons] at hl hb
    have hsemicolon : c.token ≠ .symbol .semicolon := by
      rw [hu.token_eq]
      rintro rfl
      exact hskip (by rw [hr.skip_only])
    have hbrace : c.token ≠ .symbol .rightBrace := by
      rw [hu.token_eq]
      rintro rfl
      revert hbegins
      decide
    have hend : c.token ≠ .endOfInput := by
      rw [hu.token_eq]
      rintro rfl
      revert hbegins
      decide
    rw [commands, current_ok]
    simp only [bind_ok, pure_ok]
    exact ⟨node, e, m, hc c e n m _ node hr hu (fun _ => commands_else hs hv hd) (by simp; omega),
      nodes, d, k, ih bound e hv (by omega) (by omega) rfl, rfl, rfl, rfl⟩
  | _ => cases hcategory

theorem blockOf_complete {command : Parser Cursor Node} {bound : Nat}
    (hc : CompleteCommand command bound) :
    Complete (blockOf bound command) .block (fun _ => True) (bound + 1) := by
  intro c d n m tokens node h hp _ hl
  cases h with
  | @block _ k v nodes hr =>
    obtain ⟨h1, e, he, hp⟩ := (Cursor.passes_cons ..).1 hp
    obtain ⟨f, hv, hlast⟩ := (Cursor.passes_append ..).1 hp
    obtain ⟨h2, g, hg, rfl⟩ := (Cursor.passes_cons ..).1 hlast
    simp only [List.length_cons, List.length_append, List.length_nil] at hl
    rw [blockOf, symbol_ok]
    simp only [↓symbol_ok, ↓fresh_ok, bind_ok, pure_ok]
    exact ⟨h1, e, he, nodes, f, k,
      commands_complete hc bound e f n k v nodes hr hv h2 (by omega) (by omega), h2, g, hg,
      rfl, rfl, rfl⟩

theorem assignment_complete (bound : Nat) (name : String) (c d : Cursor) (n m : Nat)
    (u : List Token) (value : Node) (h : Reads .expression n u [value] m)
    (hp : c.Passes (.symbol .assign :: (u ++ [.symbol .semicolon])) d)
    (hb : u.length < bound) :
    assignment bound name ⟨c, n⟩ =
      .ok (.assignment (m + 2) (.identifier (m + 1) name) value, ⟨d, m + 2⟩) := by
  obtain ⟨h1, e, he, hp⟩ := (Cursor.passes_cons ..).1 hp
  obtain ⟨f, hu, hlast⟩ := (Cursor.passes_append ..).1 hp
  obtain ⟨h2, g, hg, rfl⟩ := (Cursor.passes_cons ..).1 hlast
  have hends : Level.logical.ends f.token := Level.ends_symbol _ h2 (by decide)
  rw [assignment, symbol_ok]
  simp only [↓symbol_ok, ↓fresh_ok, bind_ok, pure_ok]
  exact ⟨h1, e, he, value, f, m, expression_complete hb e f n m u value h hu hends (Nat.le_refl _),
    h2, g, hg, rfl, rfl, rfl⟩

theorem condition_complete {α : Type} (bound : Nat) (rest : Node → Parser Cursor α) (c d : Cursor)
    (n m : Nat) (word : Keyword) (u : List Token) (condition : Node)
    (h : Reads .expression n u [condition] m)
    (hp : c.Passes (.keyword word :: .symbol .leftParen :: (u ++ [.symbol .rightParen])) d)
    (hb : u.length < bound) (r : α × ParseState Cursor) (hrest : rest condition ⟨d, m⟩ = .ok r) :
    (do
      keyword word
      symbol .leftParen
      let condition ← expression bound
      symbol .rightParen
      rest condition) ⟨c, n⟩ = .ok r := by
  obtain ⟨h1, e, he, h2, f, hf, hp⟩ := hp
  obtain ⟨g, hu, hlast⟩ := (Cursor.passes_append ..).1 hp
  obtain ⟨h3, i, hi, rfl⟩ := (Cursor.passes_cons ..).1 hlast
  have hends : Level.logical.ends g.token := Level.ends_symbol _ h3 (by decide)
  rw [keyword_ok]
  refine ⟨h1, e, he, ?_⟩
  rw [symbol_ok]
  simp only [↓symbol_ok, bind_ok]
  exact ⟨h2, f, hf, condition, g, m,
    expression_complete hb f g n m u condition h hu hends (Nat.le_refl _), h3, i, hi, hrest⟩

theorem conditionalOf_complete {command : Parser Cursor Node} {bound : Nat}
    (hc : CompleteCommand command bound) (c d : Cursor) (n m : Nat) (tokens : List Token)
    (node : Node) (h : Reads .command n (.keyword .ifWord :: tokens) [node] m)
    (hp : c.Passes (.keyword .ifWord :: tokens) d)
    (helse : node.dangles = true → d.token ≠ .keyword .elseWord)
    (hl : tokens.length ≤ bound) : conditionalOf bound command ⟨c, n⟩ = .ok (node, ⟨d, m⟩) := by
  cases h with
  | declared h => cases h
  | blocked h => cases h
  | action hw => exact absurd hw (by decide)
  | @conditional _ k l u v condition positive hr hs =>
    obtain ⟨i, hp, hv⟩ := (Cursor.passes_append _ _ (.keyword .ifWord :: .symbol .leftParen ::
      (u ++ [.symbol .rightParen])) v).1 (by simpa using hp)
    simp only [List.length_cons, List.length_append] at hl
    refine condition_complete bound _ c i n k .ifWord u condition hr hp (by omega) _ ?_
    rw [bind_ok]
    refine ⟨positive, d, l, hc i d k l v positive hs hv (fun _ => helse rfl) (by omega), ?_⟩
    rw [current_ok, if_neg (helse rfl), fresh_ok]
    exact (pure_ok ..).2 ⟨rfl, rfl, rfl⟩
  | @conditionalElse _ k l j u v w condition positive negative hr hs hfull hn =>
    obtain ⟨i, hp, hv⟩ := (Cursor.passes_append _ _ (.keyword .ifWord :: .symbol .leftParen ::
      (u ++ [.symbol .rightParen])) (v ++ .keyword .elseWord :: w)).1 (by simpa using hp)
    obtain ⟨e, hv, hw⟩ := (Cursor.passes_append ..).1 hv
    obtain ⟨ht, f, hf, hw⟩ := (Cursor.passes_cons ..).1 hw
    simp only [List.length_cons, List.length_append] at hl
    refine condition_complete bound _ c i n k .ifWord u condition hr hp (by omega) _ ?_
    rw [bind_ok]
    refine ⟨positive, e, l, hc i e k l v positive hs hv (by simp [hfull]) (by omega), ?_⟩
    rw [current_ok, if_pos ht, advance_ok]
    simp only [↓fresh_ok, bind_ok, pure_ok]
    exact ⟨f, hf, negative, d, j, hc f d l j w negative hn hw helse (by omega), rfl, rfl, rfl⟩

theorem loopOf_complete {command : Parser Cursor Node} {bound : Nat}
    (hc : CompleteCommand command bound) (c d : Cursor) (n m : Nat) (tokens : List Token)
    (node : Node) (h : Reads .command n (.keyword .untilWord :: tokens) [node] m)
    (hp : c.Passes (.keyword .untilWord :: tokens) d)
    (helse : node.dangles = true → d.token ≠ .keyword .elseWord)
    (hl : tokens.length ≤ bound) : loopOf bound command ⟨c, n⟩ = .ok (node, ⟨d, m⟩) := by
  cases h with
  | declared h => cases h
  | blocked h => cases h
  | action hw => exact absurd hw (by decide)
  | @loop _ k l u v condition body hr hs =>
    obtain ⟨i, hp, hv⟩ := (Cursor.passes_append _ _ (.keyword .untilWord :: .symbol .leftParen ::
      (u ++ [.symbol .rightParen])) v).1 (by simpa using hp)
    simp only [List.length_cons, List.length_append] at hl
    refine condition_complete bound _ c i n k .untilWord u condition hr hp (by omega) _ ?_
    simp only [↓fresh_ok, bind_ok, pure_ok]
    exact ⟨body, d, l, hc i d k l v body hs hv helse (by omega), rfl, rfl, rfl⟩

theorem result_complete (bound : Nat) (c d : Cursor) (n m : Nat) (tokens : List Token)
    (node : Node) (h : Reads .command n (.keyword .returnWord :: tokens) [node] m)
    (hp : c.Passes (.keyword .returnWord :: tokens) d) (hl : tokens.length ≤ bound) :
    result bound ⟨c, n⟩ = .ok (node, ⟨d, m⟩) := by
  obtain ⟨h1, e, he, hp⟩ := (Cursor.passes_cons ..).1 hp
  rw [result, keyword_ok]
  refine ⟨h1, e, he, ?_⟩
  rw [current_ok]
  cases h with
  | declared h => cases h
  | blocked h => cases h
  | action hw => exact absurd hw (by decide)
  | resultNone =>
    obtain ⟨h2, f, hf, rfl⟩ := (Cursor.passes_cons ..).1 hp
    rw [if_pos h2]
    exact (leaf_ok (Node.result · none) ..).2 ⟨hf, rfl, rfl⟩
  | @result _ k u value hr =>
    obtain ⟨f, hu, hlast⟩ := (Cursor.passes_append ..).1 hp
    obtain ⟨h2, g, hg, rfl⟩ := (Cursor.passes_cons ..).1 hlast
    have hends : Level.logical.ends f.token := Level.ends_symbol _ h2 (by decide)
    have hlength : u.length < bound := by simp at hl; omega
    have hsemicolon : e.token ≠ .symbol .semicolon := by
      obtain ⟨token, rest, rfl, hbegins⟩ := hr.begins rfl
      rw [hu.token_eq]
      rintro rfl
      revert hbegins
      decide
    rw [if_neg hsemicolon]
    simp only [↓symbol_ok, ↓fresh_ok, bind_ok, pure_ok]
    exact ⟨value, f, k, expression_complete hlength e f n k u value hr hu hends (Nat.le_refl _),
      h2, g, hg, rfl, rfl, rfl⟩

theorem action_complete (bound : Nat) (c d : Cursor) (n m : Nat) (word : Keyword)
    (hw : word ∈ Keyword.actions) (tokens : List Token) (node : Node)
    (h : Reads .command n (.keyword word :: tokens) [node] m)
    (hp : c.Passes (.keyword word :: tokens) d) (hl : tokens.length ≤ bound) :
    action bound ⟨c, n⟩ = .ok (node, ⟨d, m⟩) := by
  cases h with
  | declared h => cases h
  | blocked h => cases h
  | @action _ k _ a arguments _ hr =>
    obtain ⟨h1, e, he, h2, f, hf, hp⟩ := hp
    obtain ⟨g, ha, hlast⟩ := (Cursor.passes_append _ _ (a ++ [.symbol .rightParen])
      [.symbol .semicolon]).1 (by simpa using hp)
    obtain ⟨h3, i, hi, rfl⟩ := (Cursor.passes_cons ..).1 hlast
    have hlength : a.length < bound := by simp at hl; omega
    rw [action, current_ok, advance_ok]
    refine ⟨e, he, ?_⟩
    rw [symbol_ok]
    simp only [↓symbol_ok, ↓fresh_ok, bind_ok, pure_ok]
    exact ⟨h2, f, hf, arguments, g, k, commaList_complete (i := .expression)
      (expression_complete hlength) (by decide) f g n k a arguments hr ha (Nat.le_refl _) hlength,
      h3, i, hi, by rw [h1], rfl, rfl⟩
  | _ => exact absurd hw (by decide)

/-- A name is told apart by the token after it. -/
theorem namedCommand_complete (bound : Nat) (c d : Cursor) (n m : Nat) (name : String)
    (tokens : List Token) (node : Node) (h : Reads .command n (.identifier name :: tokens) [node] m)
    (hp : c.Passes (.identifier name :: tokens) d) (hl : tokens.length ≤ bound) :
    (do
      if (← upcoming) = .symbol .colon then variableDeclaration bound
      else namedCommand bound name : Parser Cursor Node) ⟨c, n⟩ = .ok (node, ⟨d, m⟩) := by
  obtain ⟨_, e, he, hp'⟩ := (Cursor.passes_cons ..).1 hp
  rw [upcoming_ok]
  refine ⟨e, he, ?_⟩
  rw [ite_ok, namedCommand, advance_ok]
  cases h with
  | declared h =>
    refine .inl ⟨?_, @variableDeclaration_complete _ bound (by omega) c d n m _ node h hp
      trivial (Nat.succ_le_succ hl)⟩
    cases h with
    | variableDeclaration => exact hp'.token_eq
  | blocked h => cases h
  | @callCommand _ k _ a arguments hr =>
    obtain ⟨f, hcall, hlast⟩ := (Cursor.passes_append _ _ (.symbol .leftParen ::
      (a ++ [.symbol .rightParen])) [.symbol .semicolon]).1 (by simpa using hp')
    obtain ⟨h2, g, hg, rfl⟩ := (Cursor.passes_cons ..).1 hlast
    have hlength : a.length < bound := by simp at hl; omega
    refine .inr ⟨by simp [hcall.token_eq], e, he, ?_⟩
    rw [current_ok, hcall.token_eq]
    simp only [bind_ok, ↓current_ok, ite_ok, ↓advance_ok, pure_ok]
    exact ⟨_, f, _, callOf_complete (expression_complete hlength) name e f n k a arguments hr hcall
      (Nat.le_refl _) hlength, .inl ⟨h2, g, hg, rfl, rfl, rfl⟩⟩
  | bareCall =>
    obtain ⟨h2, f, hf, rfl⟩ := (Cursor.passes_cons ..).1 hp'
    refine .inr ⟨by simp [h2], e, he, ?_⟩
    rw [current_ok, h2]
    exact (leaf_ok (Node.call · name []) ..).2 ⟨hf, rfl, rfl⟩
  | @assignment _ k _ u value hr =>
    refine .inr ⟨by simp [hp'.token_eq], e, he, ?_⟩
    rw [current_ok, hp'.token_eq]
    exact assignment_complete bound name e d n k u value hr hp' (by simp at hl; omega)
  | @elementAssignment _ k l _ i u index value hi hr =>
    obtain ⟨h2, f, hf, hp'⟩ := (Cursor.passes_cons ..).1 hp'
    obtain ⟨g, hindex, hp'⟩ := (Cursor.passes_append ..).1 hp'
    obtain ⟨h3, j, hj, hp'⟩ := (Cursor.passes_cons ..).1 hp'
    have hends : Level.logical.ends g.token := Level.ends_symbol _ h3 (by decide)
    simp only [List.length_cons, List.length_append, List.length_nil] at hl
    refine .inr ⟨by simp [h2], e, he, ?_⟩
    rw [current_ok, h2]
    change elementAssignment bound name ⟨e, n⟩ = _
    rw [elementAssignment, symbol_ok]
    simp only [↓symbol_ok, bind_ok]
    exact ⟨h2, f, hf, index, g, k, expression_complete (by omega) f g n k i index hi hindex hends
      (Nat.le_refl _), h3, j, hj, assignment_complete bound name j d k l u value hr hp' (by omega)⟩

theorem commandOver_complete {command : Parser Cursor Node} {bound : Nat}
    (hc : CompleteCommand command bound) :
    CompleteCommand (commandOver bound command) (bound + 1) := by
  intro c d n m tokens node h hp helse hl
  obtain ⟨token, rest, rfl, hbegins⟩ := h.begins rfl
  have hrest : rest.length ≤ bound := by simpa using hl
  rw [commandOver, current_ok, hp.token_eq]
  cases token with
  | identifier name => exact namedCommand_complete bound c d n m name rest node h hp hrest
  | symbol mark =>
    cases mark with
    | semicolon =>
      cases h with
      | skip =>
        obtain ⟨ht, e, he, rfl⟩ := (Cursor.passes_cons ..).1 hp
        exact (leaf_ok Node.skip ..).2 ⟨he, rfl, rfl⟩
      | declared h => cases h
      | blocked h => cases h
    | leftBrace =>
      cases h with
      | blocked h => exact blockOf_complete hc c d n m _ node h hp trivial hl
      | declared h => cases h
    | _ => cases hbegins
  | keyword word =>
    cases word with
    | ifWord => exact conditionalOf_complete hc c d n m rest node h hp helse hrest
    | untilWord => exact loopOf_complete hc c d n m rest node h hp helse hrest
    | returnWord => exact result_complete bound c d n m rest node h hp hrest
    | move | attack | gather | use | say | wait =>
      exact action_complete bound c d n m _ (by decide) rest node h hp hrest
    | _ => cases hbegins
  | _ => cases hbegins

theorem command_complete (bound : Nat) : CompleteCommand (command bound) bound := by
  induction bound with
  | zero =>
    intro c d n m tokens node h _ _ hl
    obtain ⟨token, rest, rfl, _⟩ := h.begins rfl
    exact absurd hl (Nat.not_succ_le_zero _)
  | succ bound ih => exact commandOver_complete ih

theorem functionDeclaration_complete (bound : Nat) :
    Complete (functionDeclaration bound) .functionDeclaration (fun _ => True) (bound + 1) := by
  intro c d n m tokens node h hp _ hl
  cases h with
  | @functionDeclaration _ k l name u v w parameters result body hr hs hq =>
    obtain ⟨h1, e, he, h2, f, hf, h3, g, hg, hp⟩ := hp
    obtain ⟨i, hu, hp⟩ := (Cursor.passes_append _ _ (u ++ [.symbol .rightParen]) (v ++ w)).1
      (by simpa using hp)
    obtain ⟨j, hv, hw⟩ := (Cursor.passes_append ..).1 hp
    simp only [List.length_cons, List.length_append] at hl
    have hcolon : j.token ≠ .symbol .colon := by
      obtain ⟨token, rest, rfl, hbegins⟩ := hq.begins rfl
      rw [hw.token_eq, of_decide_eq_true hbegins]
      decide
    rw [functionDeclaration, keyword_ok]
    refine ⟨h1, e, he, ?_⟩
    rw [name_ok]
    simp only [↓symbol_ok, ↓fresh_ok, bind_ok, pure_ok]
    exact ⟨name, h2, f, hf, h3, g, hg, parameters, i, k, commaList_complete (i := .parameter)
      (parameter_complete _ _) (by decide) g i n k u parameters hr hu (Nat.le_refl _) (by omega),
      result, j, k, resultType_complete i j k v result hs hv hcolon, body, d, l,
      blockOf_complete (command_complete bound) j d k l w body hq hw trivial (by omega),
      rfl, rfl, rfl⟩

theorem members_complete (inner bound : Nat) (c d : Cursor) (n m : Nat) (tokens : List Token)
    (nodes : List Node) (h : Reads .members n tokens nodes m) (hp : c.Passes tokens d)
    (hd : d.token = .symbol .rightBrace) (hl : tokens.length ≤ inner)
    (hb : tokens.length < bound) : members inner bound ⟨c, n⟩ = .ok (nodes, ⟨d, m⟩) := by
  generalize hcategory : Category.members = category at h
  induction h generalizing c bound with
  | membersEnd =>
    obtain ⟨bound, rfl⟩ := Nat.exists_eq_add_one_of_ne_zero (Nat.ne_zero_of_lt hb)
    obtain rfl := (Cursor.passes_nil ..).1 hp
    rw [members, current_ok, hd]
    exact (pure_ok ..).2 ⟨rfl, rfl, rfl⟩
  | @membersNext category n m k u v node nodes hmember hr _ _ ih =>
    obtain ⟨bound, rfl⟩ := Nat.exists_eq_add_one_of_ne_zero (Nat.ne_zero_of_lt hb)
    obtain ⟨e, hu, hv⟩ := (Cursor.passes_append ..).1 hp
    simp only [List.mem_cons, List.not_mem_nil, or_false] at hmember
    have hlength : 0 < u.length := by
      obtain ⟨token, rest, rfl, _⟩ := hr.begins (by rcases hmember with rfl | rfl <;> rfl)
      simp
    simp only [List.length_append] at hl hb
    have hothers := ih bound e hv (by omega) (by omega) rfl
    rw [members, current_ok]
    rcases hmember with rfl | rfl
    · have hrun := @variableDeclaration_complete _ inner (by omega) c e n m u node hr hu
        trivial (Nat.le_refl _)
      cases hr with
      | variableDeclaration =>
        obtain ⟨ht, f, hf, hcolon, _⟩ := hu
        rw [ht]
        simp only [↓upcoming_ok]
        refine ⟨f, hf, ?_⟩
        rw [if_pos hcolon]
        simp only [bind_ok, pure_ok]
        exact ⟨_, e, _, hrun, nodes, d, k, hothers, rfl, rfl, rfl⟩
    · have hrun := functionDeclaration_complete inner c e n m u node hr hu trivial (by omega)
      cases hr with
      | functionDeclaration =>
        rw [hu.token_eq]
        simp only [bind_ok, pure_ok]
        exact ⟨_, e, _, hrun, nodes, d, k, hothers, rfl, rfl, rfl⟩
  | _ => cases hcategory

theorem entityDeclaration_complete (bound : Nat) :
    Complete (entityDeclaration bound) .entity (fun _ => True) bound := by
  intro c d n m tokens node h hp _ hl
  cases h with
  | @entity _ k name v nodes hr =>
    obtain ⟨h1, e, he, h2, f, hf, h3, g, hg, hp⟩ := hp
    obtain ⟨i, hv, hlast⟩ := (Cursor.passes_append ..).1 hp
    obtain ⟨h4, j, hj, rfl⟩ := (Cursor.passes_cons ..).1 hlast
    simp only [List.length_cons, List.length_append] at hl
    rw [entityDeclaration, keyword_ok]
    refine ⟨h1, e, he, ?_⟩
    rw [name_ok]
    simp only [↓symbol_ok, ↓fresh_ok, bind_ok, pure_ok]
    exact ⟨name, h2, f, hf, h3, g, hg, nodes, i, k,
      members_complete bound bound g i n k v nodes hr hv h4 (by omega) (by omega), h4, j, hj,
      rfl, rfl, rfl⟩

theorem topLevel_complete (bound : Nat) (category : Category)
    (hc : category ∈ [Category.functionDeclaration, .entity, .command]) (c d : Cursor) (n m : Nat)
    (tokens : List Token) (node : Node) (h : Reads category n tokens [node] m)
    (hp : c.Passes tokens d) (helse : d.token ≠ .keyword .elseWord)
    (hl : tokens.length ≤ bound) : topLevel bound ⟨c, n⟩ = .ok (node, ⟨d, m⟩) := by
  rw [topLevel, current_ok]
  simp only [List.mem_cons, List.not_mem_nil, or_false] at hc
  rcases hc with rfl | rfl | rfl
  · obtain ⟨token, rest, rfl, hb⟩ := h.begins rfl
    rw [hp.token_eq, of_decide_eq_true hb]
    exact functionDeclaration_complete bound c d n m _ node h hp trivial (by omega)
  · obtain ⟨token, rest, rfl, hb⟩ := h.begins rfl
    rw [hp.token_eq, of_decide_eq_true hb]
    exact entityDeclaration_complete bound c d n m _ node h hp trivial hl
  · obtain ⟨token, rest, rfl, hb⟩ := h.begins rfl
    have hrun := command_complete bound c d n m _ node h hp (fun _ => helse) hl
    rw [hp.token_eq]
    cases token with
    | keyword word => cases word <;> first | exact hrun | cases hb
    | _ => exact hrun

theorem program_else {n m : Nat} {tokens : List Token} {nodes : List Node} {c d : Cursor}
    (h : Reads .program n tokens nodes m) (hp : c.Passes tokens d)
    (hd : d.token = .endOfInput) : c.token ≠ .keyword .elseWord := by
  intro helse
  cases h with
  | programEnd =>
    obtain rfl := (Cursor.passes_nil ..).1 hp
    simp [helse] at hd
  | programNext hc h =>
    simp only [List.mem_cons, List.not_mem_nil, or_false] at hc
    obtain ⟨token, rest, rfl, hb⟩ := h.begins (by rcases hc with rfl | rfl | rfl <;> rfl)
    obtain rfl := hp.token_eq
    rw [helse] at hb
    rcases hc with rfl | rfl | rfl <;> exact absurd hb (by decide)

theorem topLevels_complete (inner bound : Nat) (c d : Cursor) (n m : Nat) (tokens : List Token)
    (nodes : List Node) (h : Reads .program n tokens nodes m) (hp : c.Passes tokens d)
    (hd : d.token = .endOfInput) (hl : tokens.length ≤ inner) (hb : tokens.length < bound) :
    topLevels inner bound ⟨c, n⟩ = .ok (nodes, ⟨d, m⟩) := by
  generalize hcategory : Category.program = category at h
  induction h generalizing c bound with
  | programEnd =>
    obtain ⟨bound, rfl⟩ := Nat.exists_eq_add_one_of_ne_zero (Nat.ne_zero_of_lt hb)
    obtain rfl := (Cursor.passes_nil ..).1 hp
    rw [topLevels, current_ok, if_pos hd]
    exact (pure_ok ..).2 ⟨rfl, rfl, rfl⟩
  | @programNext category n m k u v node nodes hmember hr hs _ ih =>
    obtain ⟨bound, rfl⟩ := Nat.exists_eq_add_one_of_ne_zero (Nat.ne_zero_of_lt hb)
    obtain ⟨e, hu, hv⟩ := (Cursor.passes_append ..).1 hp
    have hcases := hmember
    simp only [List.mem_cons, List.not_mem_nil, or_false] at hcases
    obtain ⟨token, rest, rfl, hbegins⟩ := hr.begins (by rcases hcases with rfl | rfl | rfl <;> rfl)
    simp only [List.length_append, List.length_cons] at hl hb
    have hend : c.token ≠ .endOfInput := by
      rw [hu.token_eq]
      rintro rfl
      revert hbegins
      rcases hcases with rfl | rfl | rfl <;> decide
    rw [topLevels, current_ok, if_neg hend]
    simp only [bind_ok, pure_ok]
    exact ⟨node, e, m, topLevel_complete inner category hmember c e n m _ node hr hu
      (program_else hs hv hd) (by simp; omega), nodes, d, k,
      ih bound e hv (by omega) (by omega) rfl, rfl, rfl, rfl⟩
  | _ => cases hcategory

end Parser

end LevelScript

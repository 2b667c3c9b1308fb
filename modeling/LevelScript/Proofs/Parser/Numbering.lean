import LevelScript.Proofs.Parser.Declaration
import LevelScript.Proofs.Parser.Printing
import Mathlib.Data.List.Nodup

set_option autoImplicit false

/-!
# The numbers of a parsed tree

The nodes of a tree are numbered in the order in which they are built, which is not the order in
which they stand in it. The numbers that a reading takes are those of its nodes and those of the
nodes that it drops, each of them once. Only the index of an assignment to an element is dropped, so
the numbers of a tree have no gap exactly when the source has no such assignment.
-/

namespace LevelScript

namespace Node

def ids (node : Node) : List Nat :=
  node.postorder.map id

theorem ids_eq (node : Node) : node.ids = node.children.flatMap ids ++ [node.id] := by
  rw [ids, postorder_eq, List.map_append, List.map_flatMap]
  rfl

@[simp] theorem ids_identifier (id : Nat) (name : String) : (identifier id name).ids = [id] := by
  rw [ids_eq]
  rfl

theorem id_mem_ids (node : Node) : node.id ∈ node.ids := by
  rw [ids_eq]
  exact List.mem_append_right _ List.mem_cons_self

end Node

/-- The numbers after `n` up to `m` are those in `kept` and those in `dropped`, each once. -/
structure Shares (n m : Nat) (kept dropped : List Nat) : Prop where
  le : n ≤ m
  perm : (kept ++ dropped).Perm (List.range' (n + 1) (m - n))

namespace Shares

variable {n m k : Nat} {kept more dropped lost : List Nat}

theorem nil (n : Nat) : Shares n n [] [] :=
  ⟨Nat.le_refl n, by simp⟩

theorem single (n : Nat) : Shares n (n + 1) [n + 1] [] :=
  ⟨Nat.le_succ n, by simp⟩

theorem append (h : Shares n m kept dropped) (h' : Shares m k more lost) :
    Shares n k (kept ++ more) (dropped ++ lost) := by
  have hle := h.le
  have hle' := h'.le
  have hrange : List.range' (n + 1) (m - n) ++ List.range' (m + 1) (k - m) =
      List.range' (n + 1) (k - n) := by
    have hfirst : m + 1 = n + 1 + (m - n) := by omega
    have hlength : m - n + (k - m) = k - n := by omega
    rw [hfirst, List.range'_append_1, hlength]
  have hmiddle : (more ++ (dropped ++ lost)).Perm (dropped ++ (more ++ lost)) := by
    rw [← List.append_assoc, ← List.append_assoc]
    exact List.perm_append_comm.append_right lost
  refine ⟨Nat.le_trans hle hle', ?_⟩
  rw [← hrange, List.append_assoc]
  refine (hmiddle.append_left kept).trans ?_
  rw [← List.append_assoc]
  exact h.perm.append h'.perm

theorem reorder (h : Shares n m kept dropped) (hperm : kept.Perm more) : Shares n m more dropped :=
  ⟨h.le, (hperm.symm.append_right dropped).trans h.perm⟩

theorem drop (h : Shares n m kept dropped) : Shares n m [] (kept ++ dropped) :=
  ⟨h.le, h.perm⟩

theorem nodup (h : Shares n m kept dropped) : kept.Nodup :=
  List.Nodup.of_append_left (h.perm.nodup_iff.2 List.nodup_range')

theorem bounds (h : Shares n m kept dropped) {i : Nat} (hi : i ∈ kept) : n < i ∧ i ≤ m := by
  have hrange := h.perm.subset (List.mem_append_left dropped hi)
  rw [List.mem_range'_1] at hrange
  have hle := h.le
  omega

theorem length_eq (h : Shares n m kept dropped) : n + kept.length + dropped.length = m := by
  have hlength := h.perm.length_eq
  rw [List.length_append, List.length_range'] at hlength
  have hle := h.le
  omega

theorem mem_iff (h : Shares n m kept []) {i : Nat} : i ∈ kept ↔ n < i ∧ i ≤ m := by
  have hle := h.le
  have hperm := h.perm
  rw [List.append_nil] at hperm
  rw [hperm.mem_iff, List.mem_range'_1]
  omega

end Shares

theorem Level.assign_notMem_operators (l : Level) : Symbol.assign ∉ l.operators := by
  cases l <;> decide

namespace Token

/-- No equals sign stands right after a closing bracket, nor would one if the bracket stood in front
of the tokens. -/
def Unindexed (tokens : List Token) : Prop :=
  (.symbol .rightBracket :: tokens).IsChain fun first second =>
    first = .symbol .rightBracket → second ≠ .symbol .assign

/-- Somewhere among the tokens stands `name [ i ] = e ;`. -/
def AssignsElement (tokens : List Token) : Prop :=
  ∃ name i e, Derives .expression (i.map Token.terminal) ∧
    Derives .expression (e.map Token.terminal) ∧
    .identifier name :: .symbol .leftBracket ::
      (i ++ .symbol .rightBracket :: .symbol .assign :: (e ++ [.symbol .semicolon])) <:+: tokens

variable {tokens u v : List Token}

theorem Unindexed.append (hu : Unindexed u) (hv : Unindexed v) : Unindexed (u ++ v) := by
  obtain ⟨hhead, htail⟩ := List.isChain_cons.1 hv
  refine List.isChain_append.2 ⟨hu, htail, ?_⟩
  intro first _ second hsecond _
  exact hhead second hsecond rfl

theorem Unindexed.of_notMem (h : .symbol .assign ∉ tokens) : Unindexed tokens := by
  induction tokens with
  | nil => exact .singleton _
  | cons token tokens ih =>
    rw [List.mem_cons, not_or] at h
    have hone : Unindexed [token] :=
      List.isChain_cons_cons.2 ⟨fun _ htoken => h.1 htoken.symm, .singleton _⟩
    exact hone.append (ih h.2)

theorem unindexed_assign {token : Token} (hbracket : token ≠ .symbol .rightBracket)
    (hassign : token ≠ .symbol .assign) : Unindexed [token, .symbol .assign] :=
  List.isChain_cons_cons.2 ⟨fun _ => hassign,
    List.isChain_cons_cons.2 ⟨fun htoken => absurd htoken hbracket, .singleton _⟩⟩

theorem AssignsElement.mono (h : AssignsElement u) (hsub : u <:+: v) : AssignsElement v := by
  obtain ⟨name, i, e, hi, he, hinfix⟩ := h
  exact ⟨name, i, e, hi, he, hinfix.trans hsub⟩

theorem AssignsElement.not_unindexed (h : AssignsElement tokens) : ¬ Unindexed tokens := by
  obtain ⟨name, i, e, _, _, hinfix⟩ := h
  intro hchain
  have hpair : [Token.symbol .rightBracket, .symbol .assign] <:+: tokens := by
    refine List.IsInfix.trans ?_ hinfix
    exact ⟨.identifier name :: .symbol .leftBracket :: i, e ++ [.symbol .semicolon], by simp⟩
  have hbroken := hchain.tail.infix hpair
  exact (List.isChain_cons_cons.1 hbroken).1 rfl rfl

end Token

open Token (AssignsElement Unindexed)

/-- What tokens that are read from `n` to `m` say of the numbers of their nodes: all of them are in
the tree, or an assignment to an element has dropped some. -/
inductive Tallied (n m : Nat) (tokens : List Token) (kept : List Nat) : Prop where
  | gapless : Shares n m kept [] → Unindexed tokens → Tallied n m tokens kept
  | gapped {dropped : List Nat} : Shares n m kept dropped → dropped ≠ [] →
      AssignsElement tokens → Tallied n m tokens kept

namespace Tallied

variable {n m k : Nat} {tokens u v : List Token} {kept more lost : List Nat} {node : Node}

theorem shares (h : Tallied n m u kept) : ∃ dropped, Shares n m kept dropped := by
  cases h with
  | gapless h _ | gapped h _ _ => exact ⟨_, h⟩

theorem append (h : Tallied n m u kept) (h' : Tallied m k v more) :
    Tallied n k (u ++ v) (kept ++ more) := by
  cases h with
  | gapped hu hne hassigns =>
    obtain ⟨lost, hv⟩ := h'.shares
    exact .gapped (hu.append hv) (List.append_ne_nil_of_left_ne_nil hne _)
      (hassigns.mono (List.prefix_append u v).isInfix)
  | gapless hu hchain =>
    cases h' with
    | gapped hv hne hassigns =>
      exact .gapped (hu.append hv) hne (hassigns.mono (List.suffix_append u v).isInfix)
    | gapless hv hchain' => exact .gapless (hu.append hv) (hchain.append hchain')

theorem reorder (h : Tallied n m u kept) (hperm : kept.Perm more) : Tallied n m u more := by
  cases h with
  | gapped hu hne hassigns => exact .gapped (hu.reorder hperm) hne hassigns
  | gapless hu hchain => exact .gapless (hu.reorder hperm) hchain

theorem marks (tokens : List Token) (h : .symbol .assign ∉ tokens) : Tallied n n tokens [] :=
  .gapless (.nil n) (.of_notMem h)

theorem assign (token : Token) (hbracket : token ≠ .symbol .rightBracket)
    (hassign : token ≠ .symbol .assign) : Tallied n n [token, .symbol .assign] [] :=
  .gapless (.nil n) (Token.unindexed_assign hbracket hassign)

theorem after (opening : List Token) (hopening : .symbol .assign ∉ opening)
    (h : Tallied n m u kept) : Tallied n m (opening ++ u) kept :=
  (marks opening hopening).append h

theorem before (closing : List Token) (hclosing : .symbol .assign ∉ closing)
    (h : Tallied n m u kept) : Tallied n m (u ++ closing) kept := by
  have hboth := h.append (marks closing hclosing)
  rwa [List.append_nil] at hboth

theorem first (h : Tallied (n + 1) m u kept) : Tallied n m u ((n + 1) :: kept) :=
  append (.gapless (.single n) (.singleton _)) h

theorem next (h : Tallied n m u kept) : Tallied n (m + 1) u (kept ++ [m + 1]) := by
  have hboth := h.append (.gapless (.single m) (.singleton _))
  rwa [List.append_nil] at hboth

theorem root (h : Tallied n m u kept) (hkept : kept.Perm (node.children.flatMap Node.ids))
    (hid : node.id = m + 1) : Tallied n (m + 1) u ([node].flatMap Node.ids) := by
  rw [List.flatMap_singleton, Node.ids_eq, hid]
  exact (h.reorder hkept).next

theorem leaf (h : .symbol .assign ∉ tokens) (hchildren : node.children = [])
    (hid : node.id = n + 1) : Tallied n (n + 1) tokens ([node].flatMap Node.ids) :=
  root (marks tokens h) (by rw [hchildren]; exact .refl _) hid

theorem drop (h : Tallied n m u lost) (hne : lost ≠ []) (h' : Tallied m k v kept)
    (hassigns : AssignsElement tokens) : Tallied n k tokens kept := by
  obtain ⟨dropped, hu⟩ := h.shares
  obtain ⟨dropped', hv⟩ := h'.shares
  refine .gapped (hu.drop.append hv) ?_ hassigns
  exact List.append_ne_nil_of_left_ne_nil (List.append_ne_nil_of_left_ne_nil hne _) _

end Tallied

theorem Reads.tallied {category : Category} {tokens : List Token} {nodes : List Node} {n m : Nat}
    (h : Reads category n tokens nodes m) : Tallied n m tokens (nodes.flatMap Node.ids) := by
  induction h with
  | programEnd | membersEnd | commandsEnd | noItems => exact .marks [] List.not_mem_nil
  | programNext _ _ _ ih ih' | membersNext _ _ _ ih ih' | commandsNext _ _ _ ih ih' =>
    simpa using ih.append ih'
  | itemNext _ _ ih ih' => simpa using ih.append (.after [.symbol .comma] (by simp) ih')
  | commandsSkip _ ih => exact .after [.symbol .semicolon] (by simp) ih
  | declared _ ih | blocked _ ih | operand _ _ ih | someItems _ ih | itemLast _ ih => exact ih
  | skip | resultNone | bareCall | number | text | trueFactor | falseFactor | name =>
    exact .leaf (by simp) rfl rfl
  | @variableDeclaration _ _ name word _ _ _ _ _ ih =>
    have hvalue := (Tallied.assign (.keyword word) (by simp) (by simp)).append
      (ih.first.before [.symbol .semicolon] (by simp))
    exact .root (.after [.identifier name, .symbol .colon] (by simp) hvalue)
      (by simp [Node.children]) rfl
  | @functionDeclaration _ _ k name _ r _ _ _ _ _ hr _ ihp ihb =>
    have hresult : .symbol .assign ∉ r := by cases hr <;> simp
    have hparts := ihp.append (.after (.symbol .rightParen :: r) (by simpa) ihb)
    have hall := Tallied.after [.keyword .func, .identifier name, .symbol .leftParen] (by simp)
      hparts.next.next
    -- the label is numbered last, and it is the first part
    refine hall.reorder ((List.perm_append_singleton _ _).trans ?_)
    simp [Node.ids_eq (.function _ _ _ _), Node.children, Node.id]
  | @parameter n name word _ _ =>
    have hlabel : Tallied n (n + 1) [.identifier name, .symbol .colon, .keyword word] [n + 1] :=
      (Tallied.marks _ (by simp)).next
    exact .root hlabel (by simp [Node.children]) rfl
  | @entity _ _ name _ _ _ ih =>
    exact .root (.after [.keyword .entity, .identifier name, .symbol .leftBrace] (by simp)
      (ih.before [.symbol .rightBrace] (by simp))) (.refl _) rfl
  | block _ ih =>
    exact .root (.after [.symbol .leftBrace] (by simp) (ih.before [.symbol .rightBrace] (by simp)))
      (.refl _) rfl
  | conditional _ _ ihe ihc =>
    exact .root (.after [.keyword .ifWord, .symbol .leftParen] (by simp)
      (ihe.append (.after [.symbol .rightParen] (by simp) ihc))) (by simp [Node.children]) rfl
  | conditionalElse _ _ _ _ ihe ihc ihd =>
    have hbranches := ihc.append (.after [.keyword .elseWord] (by simp) ihd)
    exact .root (.after [.keyword .ifWord, .symbol .leftParen] (by simp)
      (ihe.append (.after [.symbol .rightParen] (by simp) hbranches))) (by simp [Node.children]) rfl
  | loop _ _ ihe ihc =>
    exact .root (.after [.keyword .untilWord, .symbol .leftParen] (by simp)
      (ihe.append (.after [.symbol .rightParen] (by simp) ihc))) (by simp [Node.children]) rfl
  | result _ ih =>
    exact .root (.after [.keyword .returnWord] (by simp)
      (ih.before [.symbol .semicolon] (by simp))) (.refl _) rfl
  | @action _ _ word _ _ _ _ ih =>
    exact .root (.after [.keyword word, .symbol .leftParen] (by simp)
      (ih.before [.symbol .rightParen, .symbol .semicolon] (by simp))) (.refl _) rfl
  | @callCommand _ _ name _ _ _ ih =>
    exact .root (.after [.identifier name, .symbol .leftParen] (by simp)
      (ih.before [.symbol .rightParen, .symbol .semicolon] (by simp))) (.refl _) rfl
  | @assignment _ _ name _ _ _ ih =>
    have hvalue := (Tallied.assign (.identifier name) (by simp) (by simp)).append
      (ih.before [.symbol .semicolon] (by simp))
    exact .root hvalue.next (by simp [Node.children]) rfl
  | @elementAssignment _ _ _ name i e index value hi he ihi ihe =>
    have hindex : [index].flatMap Node.ids ≠ [] := by
      rw [List.flatMap_singleton]
      exact List.ne_nil_of_mem index.id_mem_ids
    have hvalue := ihi.drop hindex ihe ⟨name, i, e, hi.derives, he.derives, List.infix_rfl⟩
    exact .root hvalue.next (by simp [Node.children]) rfl
  | binary hop _ _ ihu ihv =>
    obtain ⟨mark, hmark, rfl⟩ := Level.op?_some hop
    have hassign : .symbol .assign ∉ [Token.symbol mark] := by
      rw [List.mem_singleton]
      rintro ⟨⟩
      exact Level.assign_notMem_operators _ hmark
    exact .root (ihu.append (.after [.symbol mark] hassign ihv)) (by simp [Node.children]) rfl
  | signed hs _ ih =>
    obtain ⟨mark, hmark, rfl⟩ := Token.sign?_some hs
    have hassign : .symbol .assign ∉ [Token.symbol mark] := by
      rw [List.mem_singleton]
      rintro ⟨⟩
      exact absurd hmark (by decide)
    exact .root (.after [.symbol mark] hassign ih) (.refl _) rfl
  | group _ ih =>
    exact .after [.symbol .leftParen] (by simp) (ih.before [.symbol .rightParen] (by simp))
  | array _ ih =>
    exact .root (.after [.symbol .leftBracket] (by simp)
      (ih.before [.symbol .rightBracket] (by simp))) (.refl _) rfl
  | @call _ _ name _ _ _ ih =>
    exact .root (.after [.identifier name, .symbol .leftParen] (by simp)
      (ih.before [.symbol .rightParen] (by simp))) (.refl _) rfl
  | @access _ _ name _ _ _ ih =>
    have hparts := Tallied.after [.identifier name, .symbol .leftBracket] (by simp)
      (ih.before [.symbol .rightBracket] (by simp))
    exact .root hparts.next (by simp [Node.children]) rfl
  | @length n name =>
    have hlabel : Tallied n (n + 1) [.keyword .len, .symbol .leftParen, .identifier name,
        .symbol .rightParen] [n + 1] :=
      (Tallied.marks _ (by simp)).next
    exact .root hlabel (by simp [Node.children]) rfl

/-- The numbers of a parsed tree are different and lie between one and the counter. They are those
from one to the number of its nodes exactly when nothing is assigned to an element. -/
theorem parsed_ids (source : String) (tree : Node) (state : ParseState Lexer)
    (h : Construct.program.parse 0 source = .ok (tree, state)) :
    tree.ids.Nodup ∧ (∀ i ∈ tree.ids, 1 ≤ i ∧ i ≤ state.built) ∧
      ((∀ i, i ∈ tree.ids ↔ 1 ≤ i ∧ i ≤ tree.postorder.length) ↔
        ¬ AssignsElement (TokenStream.ofSource source).words) := by
  obtain ⟨_, nodes, m, hreads, rfl, hbuilt⟩ := program_reads h
  rw [hbuilt]
  have hlength : (Node.block (m + 1) nodes).ids.length =
      (Node.block (m + 1) nodes).postorder.length :=
    List.length_map _
  have htree : Tallied 0 (m + 1) (TokenStream.ofSource source).words
      ([Node.block (m + 1) nodes].flatMap Node.ids) :=
    .root hreads.tallied (.refl _) rfl
  rw [List.flatMap_singleton] at htree
  obtain ⟨dropped, hshares⟩ := htree.shares
  refine ⟨hshares.nodup, fun i => hshares.bounds, ?_⟩
  cases htree with
  | gapless hall hunindexed =>
    have hsize := hall.length_eq
    rw [hlength, List.length_nil, Nat.zero_add, Nat.add_zero] at hsize
    rw [hsize]
    exact iff_of_true (fun i => hall.mem_iff) fun hassigns => hassigns.not_unindexed hunindexed
  | gapped hsome hne hassigns =>
    refine iff_of_false (fun hexact => ?_) (not_not_intro hassigns)
    -- the root has the last number, which is more than the number of nodes
    have hroot := (hexact (m + 1)).1 (Node.id_mem_ids (.block (m + 1) nodes))
    have hsize := hsome.length_eq
    have hpositive := List.length_pos_iff.2 hne
    omega

/-- In `a[0]=1;` the index has the number one, which is not in the tree. -/
theorem element_assignment_ids :
    ∃ tree state, Construct.program.parse 0 "a[0]=1;" = .ok (tree, state) ∧
      tree.ids = [3, 2, 4, 5] ∧ tree.ids.Nodup ∧
      AssignsElement (TokenStream.ofSource "a[0]=1;").words ∧
      ¬ ∀ i, i ∈ tree.ids ↔ 1 ≤ i ∧ i ≤ tree.postorder.length := by
  have hwritten : Written [.identifier "a", .symbol .leftBracket, .number 0, .symbol .rightBracket,
      .symbol .assign, .number 1, .symbol .semicolon] "a[0]=1;".toList :=
    .token (.token (.token (.token (.token (.token (.token .nil))))))
  obtain ⟨hfault, hwords⟩ := hwritten.words (by decide +kernel) (by decide +kernel)
  rw [String.ofList_toList] at hfault hwords
  have hindex : Reads .expression 0 [.number 0] [.number 1 0] 1 :=
    Reads.loosen (k := .factor) .number (by decide)
  have hvalue : Reads .expression 1 [.number 1] [.number 2 1] 2 :=
    Reads.loosen (k := .factor) .number (by decide)
  have hcommand : Reads .command 0 [.identifier "a", .symbol .leftBracket, .number 0,
      .symbol .rightBracket, .symbol .assign, .number 1, .symbol .semicolon]
      [.assignment 4 (.identifier 3 "a") (.number 2 1)] 4 :=
    .elementAssignment hindex hvalue
  have hreads := Reads.programNext (by decide) hcommand .programEnd
  obtain ⟨d, hparse⟩ := program_parses hfault (by rw [hwords]; exact hreads)
  obtain ⟨hnodup, _, hgapless⟩ := parsed_ids _ _ _ hparse
  have hassigns : AssignsElement (TokenStream.ofSource "a[0]=1;").words := by
    rw [hwords]
    exact ⟨"a", _, _, hindex.derives, hvalue.derives, List.infix_rfl⟩
  refine ⟨_, _, hparse, ?_, hnodup, hassigns, fun hexact => hgapless.1 hexact hassigns⟩
  simp [Node.ids_eq, Node.children, Node.id]

end LevelScript

import LevelScript.Proofs.Evaluation.Renumbering
import LevelScript.Proofs.Parser.Language

set_option autoImplicit false

namespace LevelScript

theorem Node.dangles_renumber (number : Nat → Nat) (node : Node) :
    (node.renumber number).dangles = node.dangles := by
  fun_induction Node.dangles node with
  | case1 => rfl
  | case2 _ _ _ _ ih => exact ih
  | case3 _ _ _ ih => exact ih
  | case4 node hnone hsome hloop =>
    cases node with
    | conditional id condition positive negative =>
      cases negative with
      | none => exact (hnone _ _ _ rfl).elim
      | some negative => exact (hsome _ _ _ _ rfl).elim
    | loop id condition body => exact (hloop _ _ _ rfl).elim
    | _ => rfl

theorem Reads.le {category : Category} {n m : Nat} {tokens : List Token} {nodes : List Node}
    (h : Reads category n tokens nodes m) : n ≤ m := by
  induction h <;> omega

/-- From `n` to `m` the counter goes up by ones to the values of `count`, and the nodes that are
built on the way get these values. -/
def Recounts (number count : Nat → Nat) (n m : Nat) : Prop :=
  ∀ i, n ≤ i → i < m → number (i + 1) = count i + 1 ∧ count (i + 1) = count i + 1

namespace Recounts

variable {number count : Nat → Nat} {n m k : Nat}

theorem left (h : Recounts number count n k) (hle : m ≤ k) : Recounts number count n m :=
  fun i hi hi' => h i hi (Nat.lt_of_lt_of_le hi' hle)

theorem right (h : Recounts number count n k) (hle : n ≤ m) : Recounts number count m k :=
  fun i hi hi' => h i (Nat.le_trans hle hi) hi'

theorem init (h : Recounts number count n (m + 1)) : Recounts number count n m :=
  h.left (Nat.le_succ m)

theorem last (h : Recounts number count n (m + 1)) (hle : n ≤ m) :
    number (m + 1) = count m + 1 ∧ count (m + 1) = count m + 1 :=
  h m hle (Nat.lt_succ_self m)

theorem leaf {category : Category} {tokens : List Token}
    (h : Recounts number count n (n + 1)) (node : Nat → Node)
    (hread : ∀ i, Reads category i tokens [node (i + 1)] (i + 1))
    (hnode : (node (n + 1)).renumber number = node (number (n + 1))) :
    Reads category (count n) tokens ([node (n + 1)].map (Node.renumber number))
      (count (n + 1)) := by
  obtain ⟨hid, hlast⟩ := h.last (Nat.le_refl n)
  rw [List.map_singleton, hnode, hid, hlast]
  exact hread (count n)

theorem lastTwo (h : Recounts number count n (m + 1 + 1)) (hle : n ≤ m) :
    number (m + 1) = count m + 1 ∧ number (m + 1 + 1) = count m + 1 + 1 ∧
      count (m + 1 + 1) = count m + 1 + 1 := by
  obtain ⟨hid, hmiddle⟩ := h.init.last hle
  obtain ⟨hid', hlast⟩ := h.last (Nat.le_succ_of_le hle)
  rw [hmiddle] at hid' hlast
  exact ⟨hid, hid', hlast⟩

end Recounts

theorem Reads.renumber (number count : Nat → Nat) {category : Category} {n m : Nat}
    {tokens : List Token} {nodes : List Node} (h : Reads category n tokens nodes m)
    (hnumber : Recounts number count n m) :
    Reads category (count n) tokens (nodes.map (Node.renumber number)) (count m) := by
  induction h with
  | programEnd => exact .programEnd
  | membersEnd => exact .membersEnd
  | commandsEnd => exact .commandsEnd
  | noItems => exact .noItems
  | commandsSkip _ ih => exact .commandsSkip (ih hnumber)
  | declared _ ih => exact .declared (ih hnumber)
  | blocked _ ih => exact .blocked (ih hnumber)
  | operand hlevel _ ih => exact .operand hlevel (ih hnumber)
  | group _ ih => exact .group (ih hnumber)
  | someItems _ ih => exact .someItems (ih hnumber)
  | itemLast _ ih => exact .itemLast (ih hnumber)
  | programNext hcategory hnode hnodes ih ih' =>
    exact .programNext hcategory (ih (hnumber.left hnodes.le)) (ih' (hnumber.right hnode.le))
  | membersNext hcategory hnode hnodes ih ih' =>
    exact .membersNext hcategory (ih (hnumber.left hnodes.le)) (ih' (hnumber.right hnode.le))
  | commandsNext hskip hnode hnodes ih ih' =>
    exact .commandsNext hskip (ih (hnumber.left hnodes.le)) (ih' (hnumber.right hnode.le))
  | itemNext hnode hnodes ih ih' =>
    exact .itemNext (ih (hnumber.left hnodes.le)) (ih' (hnumber.right hnode.le))
  | skip => exact hnumber.leaf .skip (fun _ => .skip) rfl
  | resultNone => exact hnumber.leaf (.result · none) (fun _ => .resultNone) rfl
  | @bareCall _ name => exact hnumber.leaf (.call · name []) (fun _ => .bareCall) rfl
  | @number _ value => exact hnumber.leaf (.number · value) (fun _ => .number) rfl
  | @text _ value => exact hnumber.leaf (.text · value) (fun _ => .text) rfl
  | trueFactor => exact hnumber.leaf (.boolean · true) (fun _ => .trueFactor) rfl
  | falseFactor => exact hnumber.leaf (.boolean · false) (fun _ => .falseFactor) rfl
  | @name _ name => exact hnumber.leaf (.identifier · name) (fun _ => .name) rfl
  | parameter hword =>
    obtain ⟨hlabel, hid, hlast⟩ := hnumber.lastTwo (Nat.le_refl _)
    simp only [List.map_cons, List.map_nil, Node.renumber, Node.renumberOption, hlabel, hid, hlast]
    exact .parameter hword
  | length =>
    obtain ⟨hlabel, hid, hlast⟩ := hnumber.lastTwo (Nat.le_refl _)
    simp only [List.map_cons, List.map_nil, Node.renumber, hlabel, hid, hlast]
    exact .length
  -- a node with parts is built after them, but the name of a variable before its value
  | variableDeclaration hword hvalue ih =>
    obtain ⟨hid, hlast⟩ := hnumber.last (Nat.le_of_succ_le hvalue.le)
    obtain ⟨hlabel, hfirst⟩ := (hnumber.init.left hvalue.le).last (Nat.le_refl _)
    have hread := ih (hnumber.init.right (Nat.le_succ _))
    rw [hfirst] at hread
    simp only [List.map_cons, List.map_nil, Node.renumber, Node.renumberOption, hlabel, hid, hlast]
    exact .variableDeclaration hword hread
  | functionDeclaration hparameters hresult hbody ih ih' =>
    obtain ⟨hid, hlabel, hlast⟩ := hnumber.lastTwo (Nat.le_trans hparameters.le hbody.le)
    simp only [List.map_cons, List.map_nil, List.map_append, Node.renumber,
      Node.renumberAll_eq_map, hid, hlabel, hlast]
    exact .functionDeclaration (ih (hnumber.init.init.left hbody.le)) hresult
      (ih' (hnumber.init.init.right hparameters.le))
  | entity hmembers ih =>
    obtain ⟨hid, hlast⟩ := hnumber.last hmembers.le
    simp only [List.map_cons, List.map_nil, Node.renumber, Node.renumberAll_eq_map, hid, hlast]
    exact .entity (ih hnumber.init)
  | block hcommands ih =>
    obtain ⟨hid, hlast⟩ := hnumber.last hcommands.le
    simp only [List.map_cons, List.map_nil, Node.renumber, Node.renumberAll_eq_map, hid, hlast]
    exact .block (ih hnumber.init)
  | conditional hcondition hpositive ih ih' =>
    obtain ⟨hid, hlast⟩ := hnumber.last (Nat.le_trans hcondition.le hpositive.le)
    simp only [List.map_cons, List.map_nil, Node.renumber, Node.renumberOption, hid, hlast]
    exact .conditional (ih (hnumber.init.left hpositive.le))
      (ih' (hnumber.init.right hcondition.le))
  | @conditionalElse _ _ _ _ _ _ _ _ positive _ hcondition hpositive hdangles hnegative ih ih'
      ih'' =>
    have hle := Nat.le_trans hpositive.le hnegative.le
    obtain ⟨hid, hlast⟩ := hnumber.last (Nat.le_trans hcondition.le hle)
    simp only [List.map_cons, List.map_nil, Node.renumber, Node.renumberOption, hid, hlast]
    exact .conditionalElse (ih (hnumber.init.left hle))
      (ih' ((hnumber.init.right hcondition.le).left hnegative.le))
      ((Node.dangles_renumber number positive).trans hdangles)
      (ih'' (hnumber.init.right (Nat.le_trans hcondition.le hpositive.le)))
  | loop hcondition hbody ih ih' =>
    obtain ⟨hid, hlast⟩ := hnumber.last (Nat.le_trans hcondition.le hbody.le)
    simp only [List.map_cons, List.map_nil, Node.renumber, hid, hlast]
    exact .loop (ih (hnumber.init.left hbody.le)) (ih' (hnumber.init.right hcondition.le))
  | result hvalue ih =>
    obtain ⟨hid, hlast⟩ := hnumber.last hvalue.le
    simp only [List.map_cons, List.map_nil, Node.renumber, Node.renumberOption, hid, hlast]
    exact .result (ih hnumber.init)
  | action hword harguments ih =>
    obtain ⟨hid, hlast⟩ := hnumber.last harguments.le
    simp only [List.map_cons, List.map_nil, Node.renumber, Node.renumberAll_eq_map, hid, hlast]
    exact .action hword (ih hnumber.init)
  | callCommand harguments ih =>
    obtain ⟨hid, hlast⟩ := hnumber.last harguments.le
    simp only [List.map_cons, List.map_nil, Node.renumber, Node.renumberAll_eq_map, hid, hlast]
    exact .callCommand (ih hnumber.init)
  | assignment hvalue ih =>
    obtain ⟨hlabel, hid, hlast⟩ := hnumber.lastTwo hvalue.le
    simp only [List.map_cons, List.map_nil, Node.renumber, hlabel, hid, hlast]
    exact .assignment (ih hnumber.init.init)
  | elementAssignment hindex hvalue ih ih' =>
    obtain ⟨hlabel, hid, hlast⟩ := hnumber.lastTwo (Nat.le_trans hindex.le hvalue.le)
    simp only [List.map_cons, List.map_nil, Node.renumber, hlabel, hid, hlast]
    exact .elementAssignment (ih (hnumber.init.init.left hvalue.le))
      (ih' (hnumber.init.init.right hindex.le))
  | binary hop hleft hright ih ih' =>
    obtain ⟨hid, hlast⟩ := hnumber.last (Nat.le_trans hleft.le hright.le)
    simp only [List.map_cons, List.map_nil, Node.renumber, hid, hlast]
    exact .binary hop (ih (hnumber.init.left hright.le)) (ih' (hnumber.init.right hleft.le))
  | signed hsign hnode ih =>
    obtain ⟨hid, hlast⟩ := hnumber.last hnode.le
    simp only [List.map_cons, List.map_nil, Node.renumber, hid, hlast]
    exact .signed hsign (ih hnumber.init)
  | array helements ih =>
    obtain ⟨hid, hlast⟩ := hnumber.last helements.le
    simp only [List.map_cons, List.map_nil, Node.renumber, Node.renumberAll_eq_map, hid, hlast]
    exact .array (ih hnumber.init)
  | call harguments ih =>
    obtain ⟨hid, hlast⟩ := hnumber.last harguments.le
    simp only [List.map_cons, List.map_nil, Node.renumber, Node.renumberAll_eq_map, hid, hlast]
    exact .call (ih hnumber.init)
  | access hindex ih =>
    obtain ⟨hlabel, hid, hlast⟩ := hnumber.lastTwo hindex.le
    simp only [List.map_cons, List.map_nil, Node.renumber, hlabel, hid, hlast]
    exact .access (ih hnumber.init.init)

theorem Reads.program_unique {n m k : Nat} {tokens : List Token} {nodes others : List Node}
    (h : Reads .program n tokens nodes m) (h' : Reads .program n tokens others k) :
    nodes = others ∧ m = k := by
  rw [← TokenStream.words_ofTokens tokens] at h h'
  have hfault := TokenStream.fault?_ofTokens tokens
  obtain ⟨c, d, hc, hparse⟩ := program_parseAt hfault h
  obtain ⟨c', d', hc', hparse'⟩ := program_parseAt hfault h'
  obtain rfl := Except.ok.inj (hc.symm.trans hc')
  have hsame := Except.ok.inj (hparse.symm.trans hparse')
  simp only [Prod.mk.injEq, Node.block.injEq] at hsame
  exact ⟨hsame.1.2, Nat.succ.inj hsame.1.1⟩

end LevelScript

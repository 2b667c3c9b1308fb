import LevelScript.Proofs.Token.Division

set_option autoImplicit false

namespace LevelScript

namespace Numeral

theorem decimalValue?_lt (c : Char) : (Text.decimalValue? c).getD 0 < 10 := by
  unfold Text.decimalValue?
  cases hzero : Text.zeros.find? fun z => z ≤ c.toNat && c.toNat < z + 10 with
  | none => exact Nat.zero_lt_succ 9
  | some z =>
    have hrange := List.find?_some hzero
    simp only [Bool.and_eq_true, decide_eq_true_eq] at hrange
    rw [Option.map_some, Option.getD_some]
    omega

theorem value_lt (digits : List Char) : value digits < Nat.pow 10 digits.length := by
  -- the digits read before count as one more than they are
  have hfold (init : Nat) : digits.foldl (fun n c => 10 * n + (Text.decimalValue? c).getD 0) init <
      (init + 1) * Nat.pow 10 digits.length := by
    induction digits generalizing init with
    | nil => exact Nat.lt_of_lt_of_eq (Nat.lt_succ_self init) (Nat.mul_one _).symm
    | cons c digits ih =>
      have hdigit := decimalValue?_lt c
      calc digits.foldl (fun n c => 10 * n + (Text.decimalValue? c).getD 0)
            (10 * init + (Text.decimalValue? c).getD 0)
        _ < (10 * init + (Text.decimalValue? c).getD 0 + 1) * Nat.pow 10 digits.length := ih _
        _ ≤ ((init + 1) * 10) * Nat.pow 10 digits.length :=
          Nat.mul_le_mul_right _ (by omega)
        _ = (init + 1) * Nat.pow 10 (digits.length + 1) := by
          rw [Nat.mul_assoc, Nat.mul_comm 10]
          rfl
  exact Nat.lt_of_lt_of_eq (hfold 0) (Nat.one_mul _)

theorem of_read {digits : List Char} {n : Nat} (h : read digits = .ok n) :
    digits.length ≤ digitLimit ∧ n = value digits := by
  unfold read at h
  dsimp only at h
  split at h
  · cases h
  split at h
  · cases h
  next hlimit hall =>
  have hself : digits.takeWhile (fun c => (Text.decimalValue? c).isSome) = digits :=
    (List.takeWhile_prefix _).eq_of_length_le (Nat.le_of_not_lt hall)
  rw [hself] at h hlimit
  cases h
  exact ⟨Nat.le_of_not_lt hlimit, rfl⟩

theorem length_repr_of_read {digits : List Char} {n : Nat} (h : read digits = .ok n) :
    (Nat.repr n).toList.length ≤ digitLimit := by
  obtain ⟨hlength, rfl⟩ := of_read h
  have hfits {limit : Nat} (hpositive : 0 < limit) (hlimit : digits.length ≤ limit) :
      (Nat.repr (value digits)).toList.length ≤ limit := by
    rw [String.length_toList, Nat.length_repr_le_iff hpositive]
    exact Nat.lt_of_lt_of_le (value_lt digits) (Nat.pow_le_pow_right (by decide) hlimit)
  exact hfits (by decide) hlength

end Numeral

theorem Token.ReadFrom.writable {token : Token} {lexeme : List Char}
    (h : token.ReadFrom lexeme) : token.writable = true := by
  cases token with
  | number value => exact decide_eq_true (Numeral.length_repr_of_read h.2.2)
  | identifier | text | keyword | symbol | endOfInput => exact h.1

namespace TokenStream

theorem writable_of_mem_words (position : Nat) (source : List Char) :
    ∀ token ∈ (scan position source).words, token.writable = true := by
  fun_induction scan position source with
  | case1 | case4 => exact List.forall_mem_nil _
  | case2 position c rest hblank ih => exact ih
  | case3 position c rest hblank token size hfirst ih =>
    obtain ⟨_, _, _, _, _, hread, _⟩ := Lexeme.readFrom_of_first hfirst
    exact List.forall_mem_cons.2 ⟨hread.writable, ih⟩

end TokenStream

def Token.spaced : List Token → List Char
  | [] => []
  | [token] => token.chars
  | token :: tokens => token.chars ++ ' ' :: spaced tokens

theorem TokenStream.scan_spaced {tokens : List Token} (h : ∀ t ∈ tokens, t.writable = true)
    (position : Nat) : (scan position (Token.spaced tokens)).fault? = none ∧
      (scan position (Token.spaced tokens)).words = tokens := by
  fun_induction Token.spaced tokens generalizing position with
  | case1 =>
    rw [scan]
    exact ⟨rfl, rfl⟩
  | case2 token =>
    have hscan := @scan_chars position token (h token List.mem_cons_self) []
      fun c hc => absurd hc (Option.not_mem_none c)
    rw [List.append_nil] at hscan
    rw [hscan, scan]
    exact ⟨rfl, rfl⟩
  | case3 token tokens _ ih =>
    obtain ⟨hw, hws⟩ := List.forall_mem_cons.1 h
    have hspace : ∀ c ∈ (' ' :: Token.spaced tokens).head?, token.extendedBy c = false := by
      rintro c ⟨⟩
      exact token.extendedBy_blank rfl
    rw [scan_chars position hw hspace, scan_blank _ rfl]
    obtain ⟨hfault, hwords⟩ := ih hws (position + token.chars.length + 1)
    exact ⟨hfault, congrArg (token :: ·) hwords⟩

/-- Written with single spaces between them, tokens that a text can have are read as they are, and
so are the tokens of any source. -/
theorem spaced_tokens_read_back :
    (∀ tokens : List Token, (∀ t ∈ tokens, t.writable = true) →
      (TokenStream.ofSource (String.ofList (Token.spaced tokens))).fault? = none ∧
      (TokenStream.ofSource (String.ofList (Token.spaced tokens))).words = tokens) ∧
    ∀ source : String,
      let words := (TokenStream.ofSource source).words
      (TokenStream.ofSource (String.ofList (Token.spaced words))).fault? = none ∧
      (TokenStream.ofSource (String.ofList (Token.spaced words))).words = words := by
  have hread (tokens : List Token) (h : ∀ t ∈ tokens, t.writable = true) :
      (TokenStream.ofSource (String.ofList (Token.spaced tokens))).fault? = none ∧
      (TokenStream.ofSource (String.ofList (Token.spaced tokens))).words = tokens := by
    rw [TokenStream.ofSource, String.toList_ofList]
    exact TokenStream.scan_spaced h 0
  exact ⟨hread, fun source => hread _ (TokenStream.writable_of_mem_words 0 source.toList)⟩

/-- Two signs of assignment are not read as a comparison. -/
theorem assigns_read_back :
    (TokenStream.ofSource "x = = \"= 1\" 70").words =
      [.identifier "x", .symbol .assign, .symbol .assign, .text "= 1", .number 70] :=
  (spaced_tokens_read_back.1
    [.identifier "x", .symbol .assign, .symbol .assign, .text "= 1", .number 70] (by decide)).2

end LevelScript

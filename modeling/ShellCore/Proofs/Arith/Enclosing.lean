import ShellCore.Proofs.Arith.Grammar
import ShellCore.Proofs.Arith.Lexing

/-! An expression stays one where it stands in a longer text. -/

namespace ShellCore.Arith

open Text

variable {p s e : List Char} {level : Nat} {ts : List Token} {t : Tree}

theorem trimEnd_append (h : trimEnd s ≠ []) : trimEnd (p ++ s) = p ++ trimEnd s := by
  have hs : s.reverse.dropWhile isBlank ≠ [] := fun he => h (by rw [trimEnd, he, List.reverse_nil])
  rw [trimEnd, List.reverse_append, List.dropWhile_append,
    if_neg (by rwa [List.isEmpty_iff]), List.reverse_append, List.reverse_reverse, trimEnd]

/-- What decides is the end of the text, not how it starts. -/
theorem endsWithName_append (h : endsWithName s) : endsWithName (p ++ s) := by
  obtain ⟨c, hl, hc⟩ := (Option.any_eq_true _ _).mp h
  have hs : trimEnd s ≠ [] := by
    intro hs
    rw [hs] at hl
    cases hl
  rw [endsWithName, trimEnd_append hs, List.getLast?_append, hl]
  exact hc

theorem Parses.enclose (h : Parses e level ts t) (hs : ∀ a ∈ ts, a.span.start ≤ byteLength e)
    (p q : List Char) :
    ∃ u, Parses (p ++ (e ++ q)) level (ts.map (Token.shift (byteLength p))) u := by
  induction h with
  | constant => exact ⟨_, .constant⟩
  | reference => exact ⟨_, .reference⟩
  | nested => exact ⟨_, .nested⟩
  | paren h ih =>
    obtain ⟨u, hu⟩ := ih fun a ha => hs a (by simp [ha])
    rw [List.map_cons, List.map_append]
    exact ⟨u, .paren hu⟩
  | @stepped level ts t s span h hn ih =>
    obtain ⟨u, hu⟩ := ih fun a ha => hs a (by simp [ha])
    have hb : takeBytes (span.shift (byteLength p)).start (p ++ (e ++ q)) =
        p ++ takeBytes span.start e := by
      have hspan : span.start ≤ byteLength e := hs ⟨.symbol (.step s), span⟩ (by simp)
      rw [Span.shift, Nat.add_comm, takeBytes_add_append, takeBytes_append_of_le hspan]
    rw [List.map_append]
    exact ⟨_, .stepped hu (hb ▸ endsWithName_append hn)⟩
  | unary hs' hl h ih =>
    obtain ⟨u, hu⟩ := ih fun a ha => hs a (by simp [ha])
    rw [List.map_cons]
    exact ⟨_, .unary hs' hl hu⟩
  | binary hl ht hu iht ihu =>
    obtain ⟨t, ht⟩ := iht fun a ha => hs a (by simp [ha])
    obtain ⟨u, hu⟩ := ihu fun a ha => hs a (by simp [ha])
    rw [List.map_append, List.map_cons]
    exact ⟨_, .binary hl ht hu⟩

/-- The expression in parentheses, assigned to a variable. -/
def assignmentText (name expression : String) : String := name ++ " = (" ++ expression ++ ")"

theorem toList_assignmentText (name expression : String) :
    (assignmentText name expression).toList =
      name.toList ++ ' ' :: '=' :: ' ' :: '(' :: (expression.toList ++ [')']) := by
  simp [assignmentText]

theorem tokens_assignmentText {name : String} (hx : IsVariableName name.toList)
    (expression : String) :
    ∃ a b c, tokens (assignmentText name expression).toList =
      .ok ⟨.variable name, a⟩ :: .ok ⟨.symbol (.binary (.assign none)), b⟩ ::
        .ok ⟨.symbol .openParen, c⟩ ::
        tokensFrom (byteLength name.toList + 4) 0 (expression.toList ++ [')']) := by
  rw [toList_assignmentText, tokens_name hx (by simp; rfl), String.ofList_toList]
  exact ⟨_, _, _, rfl⟩

/-- The text of an assignment is an expression that assigns. -/
theorem parses_assignmentText {name expression : String} (hx : IsVariableName name.toList)
    (ht : tokens expression.toList = ts.map .ok) (hd : Derivable expression.toList ts) :
    ∃ us span place u, tokens (assignmentText name expression).toList = us.map .ok ∧
      Parses (assignmentText name expression).toList 0 us
        (.binary (.assign none) span (.reference name place) u) := by
  obtain ⟨t, hparse⟩ := hd
  obtain ⟨a, b, c, htokens⟩ := tokens_assignmentText hx expression
  obtain ⟨u, hu⟩ := hparse.enclose (fun a ha => span_start_le ht ha)
    (name.toList ++ [' ', '=', ' ', '(']) [')']
  have hp : byteLength (name.toList ++ [' ', '=', ' ', '(']) = byteLength name.toList + 4 := by
    rw [byteLength_append]
    rfl
  have htext : (assignmentText name expression).toList =
      name.toList ++ [' ', '=', ' ', '('] ++ (expression.toList ++ [')']) := by
    rw [toList_assignmentText, List.append_assoc]
    rfl
  rw [tokensFrom_append isDelimiter_closeParen (Nat.zero_le _) (tokensFrom_of_tokens ht _)]
    at htokens
  rw [hp, ← htext] at hu
  generalize byteLength name.toList + 4 = k at htokens hu
  obtain ⟨d, hclose⟩ : ∃ d, tokensFrom (k + byteLength expression.toList) 0 [')'] =
      [.ok ⟨.symbol .closeParen, d⟩] := ⟨_, rfl⟩
  refine ⟨_, b, a, u, htokens.trans ?_,
    .binary (Nat.zero_le _) .reference (.paren (a := c) (b := d) hu)⟩
  rw [hclose]
  simp

end ShellCore.Arith

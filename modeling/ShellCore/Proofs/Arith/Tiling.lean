import ShellCore.Proofs.Arith.Placement

/-! The tokens of a text cover all of it but blanks, piece by piece. -/

namespace ShellCore.Arith

open Text

variable {a : Char} {source before gap l rest s : List Char} {start : Nat} {v : TokenValue}
  {r : Reading} {rs : List Reading}

/-- One call of the tokenizer at a byte offset: what it reads there, if anything is left, and the
offset of the next call. There is no call inside a character. -/
def nextReading? (source : List Char) (index : Nat) : Option (Option Reading × Nat) :=
  (dropBytes? index source).map fun unread =>
    let s := trimStart unread
    let start := byteLength source - byteLength s
    if s.isEmpty then (none, start)
    else
      let (value, length) := lex s
      let span : Span := ⟨start, start + byteLength (s.take length)⟩
      match value with
      | .ok value => (some (.ok ⟨value, span⟩), span.stop)
      | .error e => (some (.error (e, span)), byteLength source)

/-- Calls from the offset on yield the readings and then nothing more. -/
inductive Calls (source : List Char) : Nat → List Reading → Prop
  | done {index index' : Nat} (h : nextReading? source index = some (none, index')) :
    Calls source index []
  | step {index index' : Nat} {r : Reading} {rs : List Reading}
    (h : nextReading? source index = some (some r, index')) (hrs : Calls source index' rs) :
    Calls source index (r :: rs)

/-- The token is the whole of the first text, where the second one follows: no longer operator and
no more of a constant or of a name is there, and alone the text is that token again. -/
structure IsWhole (v : TokenValue) (l rest : List Char) : Prop where
  symbol : ∀ s, v = .symbol s → (l, s) ∈ Symbol.spellings ∧
    ∀ q ∈ Symbol.spellings, q.1 <+: l ++ rest → q.1.length ≤ l.length
  constant : ∀ n, v = .constant n → EndsWord rest
  name : ∀ name, v = .variable name → l = name.toList → EndsWord rest
  alone : tokens l = [.ok ⟨v, ⟨0, byteLength l⟩⟩]

/-- The readings lie in the text one behind the other, with only blanks beside them: tokens up to
the end of the text, or up to one error. -/
inductive Tiles : Nat → List Char → List Reading → Prop
  | blank {start : Nat} {gap : List Char} (hg : ∀ c ∈ gap, isBlank c) : Tiles start gap []
  | token {start : Nat} {gap l rest : List Char} {a : Char} {v : TokenValue} {rs : List Reading}
    (hg : ∀ c ∈ gap, isBlank c) (ha : isBlank a = false) (hw : IsWhole v (a :: l) rest)
    (hr : Tiles (start + byteLength gap + byteLength (a :: l)) rest rs) :
    Tiles start (gap ++ (a :: l ++ rest))
      (.ok ⟨v, ⟨start + byteLength gap, start + byteLength gap + byteLength (a :: l)⟩⟩ :: rs)
  | error {start : Nat} {gap l rest : List Char} {a : Char} {e : TokenError}
    (hg : ∀ c ∈ gap, isBlank c) (ha : isBlank a = false) :
    Tiles start (gap ++ (a :: l ++ rest))
      [.error (e, ⟨start + byteLength gap, start + byteLength gap + byteLength (a :: l)⟩)]

theorem nextReading?_blank (hg : ∀ c ∈ gap, isBlank c) (before : List Char) :
    nextReading? (before ++ gap) (byteLength before) = some (none, byteLength (before ++ gap)) := by
  have ht : trimStart gap = [] := List.dropWhile_eq_nil_iff.mpr hg
  simp [nextReading?, dropBytes?_byteLength_append, ht]

/-- A call reads the lexeme behind the blanks. -/
theorem nextReading?_lexeme (hg : ∀ c ∈ gap, isBlank c) (ha : isBlank a = false)
    {r : Except TokenError TokenValue} (hl : lex (a :: l ++ rest) = (r, l.length + 1))
    (before : List Char) :
    let span : Span := ⟨byteLength (before ++ gap), byteLength (before ++ gap ++ a :: l)⟩
    nextReading? (before ++ (gap ++ (a :: l ++ rest))) (byteLength before) =
      match r with
      | .ok v => some (some (.ok ⟨v, span⟩), span.stop)
      | .error e => some (some (.error (e, span)),
          byteLength (before ++ (gap ++ (a :: l ++ rest)))) := by
  have ht : trimStart (gap ++ (a :: l ++ rest)) = a :: l ++ rest := by
    rw [trimStart_append hg]
    exact trimStart_cons ha _
  have hstart : byteLength (before ++ (gap ++ (a :: l ++ rest))) - byteLength (a :: l ++ rest) =
      byteLength (before ++ gap) := by
    simp only [byteLength_append]
    omega
  have htake : (a :: l ++ rest).take (l.length + 1) = a :: l := by simp
  rw [byteLength_append (before ++ gap) (a :: l)]
  simp only [nextReading?, dropBytes?_byteLength_append, Option.map_some, ht, hstart, hl, htake]
  cases r <;> rfl

/-- The calls move through the text to its end. -/
theorem calls_tokensFrom (before s : List Char) :
    Calls (before ++ s) (byteLength before) (tokensFrom (byteLength before) 0 s) := by
  induction segmented s generalizing before with
  | blank hg =>
    rw [tokensFrom_blank hg]
    exact .done (nextReading?_blank hg before)
  | @token gap l rest a v hg ha hl hr ih =>
    have hnext := nextReading?_lexeme hg ha hl before
    have hcalls := ih (before ++ gap ++ a :: l)
    rw [tokensFrom_token hg ha hl, ← byteLength_append, ← byteLength_append]
    refine .step hnext ?_
    simpa using hcalls
  | @error gap l rest a e hg ha hl =>
    have hnext := nextReading?_lexeme hg ha hl before
    have hend := nextReading?_blank (List.forall_mem_nil _)
      (before ++ (gap ++ (a :: l ++ rest)))
    rw [List.append_nil] at hend
    rw [tokensFrom_error hg ha hl, ← byteLength_append, ← byteLength_append]
    exact .step hnext (.done hend)

theorem tokens_lexeme (ha : isBlank a = false) (hl : lex (a :: l) = (.ok v, l.length + 1)) :
    tokens (a :: l) = [.ok ⟨v, ⟨0, byteLength (a :: l)⟩⟩] := by
  have h : tokensFrom 0 0 (a :: l ++ []) = _ := tokensFrom_lexeme ha (by rwa [List.append_nil])
  rwa [List.append_nil, Nat.zero_add] at h

theorem isWhole_of_lex (ha : isBlank a = false)
    (hl : lex (a :: l ++ rest) = (.ok v, l.length + 1)) : IsWhole v (a :: l) rest := by
  have hw := written_of_lex hl
  refine ⟨?_, ?_, ?_, tokens_lexeme ha (lex_of_append hl)⟩
  · rintro s rfl
    cases hw with
    | symbol hs hlong => exact ⟨hs, hlong⟩
  · rintro n rfl
    cases hw with
    | constant hn hr => exact hr
  · rintro name rfl hname
    -- With a dollar sign the text is longer than the name.
    generalize a :: l = text at hw hname
    cases hw with
    | name hne hc hr => exact hr
    | dollar | special | braces =>
      have hlen := congrArg List.length hname
      simp only [String.toList_ofList, List.length_cons, List.length_append] at hlen
      omega

theorem tiles_tokensFrom (start : Nat) (s : List Char) : Tiles start s (tokensFrom start 0 s) := by
  induction segmented s generalizing start with
  | blank hg =>
    rw [tokensFrom_blank hg]
    exact .blank hg
  | token hg ha hl hr ih =>
    rw [tokensFrom_token hg ha hl]
    exact .token hg ha (isWhole_of_lex ha hl) (ih _)
  | error hg ha hl =>
    rw [tokensFrom_error hg ha hl]
    exact .error hg ha

namespace Tiles

theorem start_le (h : Tiles start s rs) : ∀ r ∈ rs, start ≤ r.span.start := by
  induction h with
  | blank => exact List.forall_mem_nil _
  | token hg ha hw hr ih =>
    refine List.forall_mem_cons.mpr ⟨Nat.le_add_right _ _, ?_⟩
    intro r hr
    have hstart := ih r hr
    omega
  | error => exact List.forall_mem_singleton.mpr (Nat.le_add_right _ _)

theorem pairwise (h : Tiles start s rs) :
    rs.Pairwise fun r r' => r.span.stop ≤ r'.span.start := by
  induction h with
  | blank => exact .nil
  | token hg ha hw hr ih => exact .cons hr.start_le ih
  | error => exact List.pairwise_singleton _ _

theorem length_le (h : Tiles start s rs) : rs.length ≤ s.length := by
  induction h with
  | blank => exact Nat.zero_le _
  | token hg ha hw hr ih =>
    simp only [List.length_append, List.length_cons] at ih ⊢
    omega
  | error =>
    simp only [List.length_append, List.length_cons, List.length_nil]
    omega

/-- Nothing is read behind an error. -/
theorem eq_nil_of_error (h : Tiles start s rs) {first last : List Reading}
    {e : TokenError × Span} (hrs : rs = first ++ .error e :: last) : last = [] := by
  induction h generalizing first with
  | blank => simp at hrs
  | token hg ha hw hr ih =>
    cases first with
    | nil => cases hrs
    | cons r first => exact ih (List.cons.inj hrs).2
  | error =>
    cases first with
    | nil => exact (List.cons.inj hrs).2.symm
    | cons r first => simp at hrs

end Tiles

/-- The tokenizer comes to an end, with at most one reading for each character. Its readings tile
the text: each covers some characters of its own behind those of the one before, with only blanks
between, and an error is the last one. -/
theorem tokens_tile (source : List Char) :
    Calls source 0 (tokens source) ∧ (tokens source).length ≤ source.length ∧
    Tiles 0 source (tokens source) ∧
    (tokens source).Pairwise (fun r r' => r.span.stop ≤ r'.span.start) ∧
    (∀ r ∈ tokens source, Covers source r.span ∧ r.span.start < r.span.stop) ∧
    ∀ before e after, tokens source = before ++ .error e :: after → after = [] := by
  have htiles : Tiles 0 source (tokens source) := tiles_tokensFrom 0 source
  refine ⟨calls_tokensFrom [] source, htiles.length_le, htiles, htiles.pairwise, ?_, ?_⟩
  · intro r hr
    obtain ⟨before, l, after, hs, hl, hspan⟩ := covers_of_mem_tokens hr
    refine ⟨⟨before, l, after, hs, hl, hspan⟩, ?_⟩
    have hpos : byteLength l ≠ 0 := mt byteLength_eq_zero.mp hl
    rw [hspan]
    dsimp only
    omega
  · exact fun before e after h => htiles.eq_nil_of_error h

end ShellCore.Arith

import ShellCore.Arith.Expansion
import ShellCore.Proofs.Arith.Brackets
import ShellCore.Proofs.Arith.Dereference

/-! Brackets around a whole expression. They are told from those of one operand by where they
close. -/

namespace ShellCore.Arith

open Text

variable {b : Brackets} {s body inner rest : List Char} {i m n size start : Nat}

/-- The text up to byte `n`, if a character starts or the text ends there. -/
def sliceTo? (n : Nat) (s : List Char) : Option (List Char) :=
  (dropBytes? n s).map fun _ => takeBytes n s

/-- The difference modulo the number of machine words. -/
def wrappingSub (size m n : Nat) : Nat := (m + size - n) % size

/-- Takes the closer from the end of `inner` if it is the one that is found, and else yields the
whole text `s`. A machine with so many words does this by indices, where an index that is negative
or lies inside a character stops it. -/
def Brackets.cut? (b : Brackets) (size : Nat) (s inner : List Char) : Option (List Char) :=
  let total := (utf8 inner).length
  let length := (utf8 b.closer).length
  if b.closingIndex? 0 0 (utf8 inner) = some (wrappingSub size total length) then
    if length ≤ total then sliceTo? (total - length) inner else none
  else some s

/-- Takes an envelope away as the machine does. -/
def withoutEnvelopeBy? (size : Nat) (s : List Char) : Option (List Char) :=
  match trim s with
  | '$' :: '(' :: '(' :: inner => Brackets.parens.cut? size s inner
  | '$' :: '[' :: inner => Brackets.square.cut? size s inner
  | _ => some s

theorem sliceTo?_append (s t : List Char) : sliceTo? (byteLength s) (s ++ t) = some s := by
  rw [sliceTo?, dropBytes?_byteLength_append, takeBytes_byteLength_append]
  rfl

theorem byteLength_of_sliceTo? (h : sliceTo? i s = some body) : byteLength body = i := by
  obtain ⟨t, ht, rfl⟩ := Option.map_eq_some_iff.mp h
  exact (dropBytes?_eq_some ht).2

theorem wrappingSub_of_le (h : n ≤ m) (hm : m < size) : wrappingSub size m n = m - n := by
  have hsum : m + size - n = m - n + size := by omega
  rw [wrappingSub, hsum, Nat.add_mod_right, Nat.mod_eq_of_lt (by omega)]

theorem byteLength_trim_le (s : List Char) : byteLength (trim s) ≤ byteLength s := by
  obtain ⟨gap, gap', hs, -, -⟩ := exists_of_trim s
  have hlength := congrArg byteLength hs
  rw [byteLength_append, byteLength_append] at hlength
  omega

/-- Where the closer stands, the text is cut between two characters. -/
theorem Brackets.closesAt_iff : b.ClosesAt (utf8 s) i ↔
    ∃ body, sliceTo? i s = some body ∧ b.before? 0 s = some body := by
  rw [← closingIndex?_eq_some_iff_closesAt, closingIndex?_utf8, Option.map_eq_some_iff]
  constructor
  · rintro ⟨body, hb, rfl⟩
    obtain ⟨⟨rest, hs⟩, -⟩ := b.before?_eq_some_iff.mp hb
    refine ⟨body, ?_, hb⟩
    rw [Nat.zero_add, ← hs, List.append_assoc, sliceTo?_append]
  · rintro ⟨body, hs, hb⟩
    exact ⟨body, hb, (Nat.zero_add _).trans (byteLength_of_sliceTo? hs)⟩

/-- An expression in brackets is one token, whatever follows. -/
theorem tokensFrom_enclose (h : IsBalanced b.opening b.closing 0 body) (start : Nat)
    (rest : List Char) :
    tokensFrom start 0 (b.enclose body ++ rest) =
      .ok ⟨.nested body (byteLength b.opener),
          ⟨start, start + byteLength (b.enclose body)⟩⟩ ::
        tokensFrom (start + byteLength (b.enclose body)) 0 rest := by
  have he : b.enclose body = '$' :: (b.opener.tail ++ (body ++ b.closer)) := by cases b <;> rfl
  have hlex := b.lexDollar_opener (body ++ (b.closer ++ rest))
  rw [Brackets.before?_closed h, ← List.append_assoc body, ← List.append_assoc] at hlex
  generalize b.opener.tail ++ (body ++ b.closer) = l at he hlex
  have hlength : (body ++ b.closer).length + b.opener.length = l.length + 1 := by
    have hcount := congrArg List.length he
    rw [Brackets.enclose, List.length_append, List.length_cons] at hcount
    omega
  dsimp only at hlex
  rw [hlength] at hlex
  rw [he]
  exact tokensFrom_lexeme (by decide) hlex

theorem withoutEnvelope_of_opener (h : trim s = b.opener ++ inner) :
    withoutEnvelope s = match b.before? 0 inner with
      | some body => if body.length + b.closer.length = inner.length then body else s
      | none => s := by
  cases b <;>
  · rw [withoutEnvelope, h]
    rfl

theorem withoutEnvelope_of_no_opener (h : ∀ b inner, trim s ≠ Brackets.opener b ++ inner) :
    withoutEnvelope s = s := by
  rw [withoutEnvelope]
  split
  · next hs => exact absurd hs (h .parens _)
  · next hs => exact absurd hs (h .square _)
  · rfl

theorem withoutEnvelopeBy?_of_no_opener (h : ∀ b inner, trim s ≠ Brackets.opener b ++ inner) :
    withoutEnvelopeBy? size s = some s := by
  rw [withoutEnvelopeBy?]
  split
  · next hs => exact absurd hs (h .parens _)
  · next hs => exact absurd hs (h .square _)
  · rfl

/-- Brackets that are found around the whole text enclose an expression of their own. -/
theorem trim_eq_enclose (h : trim s = b.opener ++ inner) (hb : b.before? 0 inner = some body)
    (hlen : body.length + b.closer.length = inner.length) :
    trim s = b.enclose body ∧ IsBalanced b.opening b.closing 0 body := by
  obtain ⟨hp, hbal⟩ := b.before?_eq_some_iff.mp hb
  have hinner : body ++ b.closer = inner :=
    hp.eq_of_length (by rw [List.length_append, hlen])
  rw [h, ← hinner]
  exact ⟨rfl, hbal⟩

/-- What is behind the brackets keeps them from being an envelope. -/
theorem withoutEnvelope_of_enclosed (h : trim s = b.enclose body ++ rest)
    (hb : IsBalanced b.opening b.closing 0 body) :
    withoutEnvelope s = if rest = [] then body else s := by
  rw [Brackets.enclose, List.append_assoc, List.append_assoc] at h
  have hlen : body.length + b.closer.length = (body ++ (b.closer ++ rest)).length ↔
      rest = [] := by
    rw [← List.length_eq_zero_iff]
    simp only [List.length_append]
    omega
  rw [withoutEnvelope_of_opener h, Brackets.before?_closed hb]
  exact if_congr hlen rfl rfl

/-- An envelope is taken away from the texts that are, blanks at the ends apart, one expression in
brackets, and from no others. -/
theorem withoutEnvelope_iff : withoutEnvelope s = body ∧ body ≠ s ↔
    ∃ b : Brackets, trim s = b.enclose body ∧ IsBalanced b.opening b.closing 0 body := by
  constructor
  · rintro ⟨rfl, hne⟩
    by_cases ho : ∃ b inner, trim s = Brackets.opener b ++ inner
    · obtain ⟨b, inner, hs⟩ := ho
      refine ⟨b, ?_⟩
      have he := withoutEnvelope_of_opener hs
      cases hb : b.before? 0 inner with
      | none =>
        rw [hb] at he
        exact absurd he hne
      | some body =>
        rw [hb] at he
        dsimp only at he
        split at he
        · next hlen =>
          rw [he]
          exact trim_eq_enclose hs hb hlen
        · exact absurd he hne
    · have hs := withoutEnvelope_of_no_opener fun b inner hs => ho ⟨b, inner, hs⟩
      exact absurd hs hne
  · rintro ⟨b, hs, hb⟩
    refine ⟨?_, ?_⟩
    · have hwhole : trim s = b.enclose body ++ [] := by rw [hs, List.append_nil]
      rw [withoutEnvelope_of_enclosed hwhole hb, if_pos rfl]
    · -- The brackets take up characters of the text.
      rintro rfl
      have hle := byteLength_trim_le body
      have hopener : byteLength b.opener ≠ 0 := by cases b <;> decide
      rw [hs, Brackets.enclose, byteLength_append, byteLength_append] at hle
      omega

/-- The machine finds the envelope that there is, and cuts it off between two characters. -/
theorem Brackets.cut?_eq (h : byteLength inner < size) :
    b.cut? size s inner = some (match b.before? 0 inner with
      | some body => if body.length + b.closer.length = inner.length then body else s
      | none => s) := by
  rw [cut?, closingIndex?_utf8, length_utf8, length_utf8]
  cases hb : b.before? 0 inner with
  | none => exact if_neg nofun
  | some body =>
    obtain ⟨⟨rest, rfl⟩, -⟩ := b.before?_eq_some_iff.mp hb
    have hsub : wrappingSub size (byteLength (body ++ b.closer ++ rest)) (byteLength b.closer) =
        byteLength body + byteLength rest := by
      rw [wrappingSub_of_le (by simp only [byteLength_append]; omega) h]
      simp only [byteLength_append]
      omega
    rw [hsub]
    by_cases hr : rest = []
    · subst hr
      have hsplit : byteLength (body ++ b.closer) - byteLength b.closer = byteLength body := by
        rw [byteLength_append, Nat.add_sub_cancel]
      rw [List.append_nil, hsplit, sliceTo?_append, if_pos (by simp), if_pos (by simp)]
      dsimp only
      rw [if_pos (by simp)]
    · have hpos := mt byteLength_eq_zero.mp hr
      have hlen := mt List.length_eq_zero_iff.mp hr
      rw [if_neg (by simp [hpos])]
      dsimp only
      rw [if_neg (by simp only [List.length_append]; omega)]

theorem withoutEnvelopeBy?_of_opener (h : trim s = b.opener ++ inner) :
    withoutEnvelopeBy? size s = b.cut? size s inner := by
  cases b <;>
  · rw [withoutEnvelopeBy?, h]
    rfl

theorem withoutEnvelopeBy?_eq (h : byteLength s < size) :
    withoutEnvelopeBy? size s = some (withoutEnvelope s) := by
  by_cases ho : ∃ b inner, trim s = Brackets.opener b ++ inner
  · obtain ⟨b, inner, hs⟩ := ho
    have hle := byteLength_trim_le s
    rw [hs, byteLength_append] at hle
    rw [withoutEnvelopeBy?_of_opener hs, withoutEnvelope_of_opener hs,
      Brackets.cut?_eq (by omega)]
  · have hno : ∀ b inner, trim s ≠ Brackets.opener b ++ inner :=
      fun b inner hs => ho ⟨b, inner, hs⟩
    rw [withoutEnvelopeBy?_of_no_opener hno, withoutEnvelope_of_no_opener hno]

/-- An expression in brackets ends at the one byte where the brackets up to there are balanced and
its closer stands. That byte starts a character, and the tokenizer takes the text up to it, whatever
follows. Such brackets are an envelope if they enclose the whole text, and only then. Lengths in
machine words tell the same, where the text is not longer than the greatest of them. -/
theorem brackets_matched_exactly :
    (∀ (s : List Char) (b : Brackets) (i : Nat),
      (b.closingIndex? 0 0 (utf8 s) = some i ↔ b.ClosesAt (utf8 s) i) ∧
      (b.ClosesAt (utf8 s) i ↔ ∃ body, sliceTo? i s = some body ∧ b.before? 0 s = some body) ∧
      ∀ j, b.ClosesAt (utf8 s) i → b.ClosesAt (utf8 s) j → i = j) ∧
    (∀ (s body : List Char) (b : Brackets), b.before? 0 s = some body ↔
      body ++ b.closer <+: s ∧ IsBalanced b.opening b.closing 0 body) ∧
    (∀ (b : Brackets) (body rest : List Char) (start : Nat),
      IsBalanced b.opening b.closing 0 body →
      tokensFrom start 0 (b.enclose body ++ rest) =
        .ok ⟨.nested body (byteLength b.opener),
            ⟨start, start + byteLength (b.enclose body)⟩⟩ ::
          tokensFrom (start + byteLength (b.enclose body)) 0 rest) ∧
    (∀ s body : List Char, withoutEnvelope s = body ∧ body ≠ s ↔
      ∃ b : Brackets, trim s = b.enclose body ∧ IsBalanced b.opening b.closing 0 body) ∧
    (∀ (s body rest : List Char) (b : Brackets), IsBalanced b.opening b.closing 0 body →
      trim s = b.enclose body ++ rest → rest ≠ [] → withoutEnvelope s = s) ∧
    ∀ (s : List Char) (size : Nat), byteLength s < size →
      withoutEnvelopeBy? size s = some (withoutEnvelope s) := by
  refine ⟨fun s b i => ⟨Brackets.closingIndex?_eq_some_iff_closesAt, Brackets.closesAt_iff,
    fun j hi hj => hi.unique hj⟩, fun s body b => b.before?_eq_some_iff,
    fun b body rest start hb => tokensFrom_enclose hb start rest,
    fun s body => withoutEnvelope_iff, ?_, fun s size h => withoutEnvelopeBy?_eq h⟩
  intro s body rest b hb hs hr
  rw [withoutEnvelope_of_enclosed hs hb, if_neg hr]

/-- The first expression in brackets is one operand of the sum, and no envelope. -/
theorem brackets_of_operand_matched :
    IsBalanced '(' ')' 0 "(é)".toList ∧
      trim "$(((é))) + $((2))".toList = "$(((é)))".toList ++ " + $((2))".toList ∧
      byteLength "$(((é))) + $((2))".toList < 2 ^ 64 ∧
      tokens "$(((é))) + $((2))".toList =
        .ok ⟨.nested "(é)".toList 3, ⟨0, 9⟩⟩ :: tokensFrom 9 0 " + $((2))".toList ∧
      withoutEnvelope "$(((é))) + $((2))".toList = "$(((é))) + $((2))".toList ∧
      withoutEnvelopeBy? (2 ^ 64) "$(((é))) + $((2))".toList =
        some "$(((é))) + $((2))".toList := by
  have hb : IsBalanced '(' ')' 0 "(é)".toList := by decide
  have hs : trim "$(((é))) + $((2))".toList = "$(((é)))".toList ++ " + $((2))".toList := by decide
  have hlen : byteLength "$(((é))) + $((2))".toList < 2 ^ 64 := by decide
  obtain ⟨-, -, htokens, -, hstays, hmachine⟩ := brackets_matched_exactly
  have hwhole := hstays _ _ _ .parens hb hs (by decide)
  have hcut := hmachine _ _ hlen
  rw [hwhole] at hcut
  exact ⟨hb, hs, hlen, htokens .parens _ _ 0 hb, hwhole, hcut⟩

end ShellCore.Arith

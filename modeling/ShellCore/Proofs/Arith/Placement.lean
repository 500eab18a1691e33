import ShellCore.Proofs.Arith.Spacing
import ShellCore.Proofs.Arith.Written

/-! Where tokens stand: in the text they are read from, and in texts that enclose it. -/

namespace ShellCore.Arith

open Text

variable {a : Char} {source body s : List Char} {start opening n : Nat} {place : Span}
  {e : TokenError} {r : Reading} {rs : List Reading} {v : TokenValue}

def Reading.span : Reading → Span
  | .ok t => t.span
  | .error (_, span) => span

/-- How an expression in brackets is written. -/
inductive Bracketed (body : List Char) : Nat → List Char → Prop
  | parens : Bracketed body 3 (['$', '(', '('] ++ (body ++ [')', ')']))
  | bracket : Bracketed body 2 (['$', '['] ++ (body ++ [']']))

/-- The reading is one of the source or of an expression in brackets in it, at its place in the
source. -/
inductive Encloses : List Char → Reading → Prop
  | here {source : List Char} {r : Reading} (h : r ∈ tokens source) : Encloses source r
  | nested {source before l after body : List Char} {opening : Nat} {r : Reading}
    (hs : source = before ++ (l ++ after)) (hl : Bracketed body opening l)
    (h : .ok ⟨.nested body opening, ⟨byteLength before, byteLength before + byteLength l⟩⟩ ∈
      tokens source) (hr : Encloses body r) :
    Encloses source (r.shift (byteLength before + opening))

/-- The span is that of some characters of the source, of which there is at least one. -/
def Covers (source : List Char) (span : Span) : Prop :=
  ∃ before l after, source = before ++ (l ++ after) ∧ l ≠ [] ∧
    span = ⟨byteLength before, byteLength before + byteLength l⟩

/-- Each reading is about characters of its own, from which a token is read. -/
theorem exists_of_mem_tokensFrom (h : r ∈ tokensFrom start 0 s) :
    ∃ before l after, s = before ++ (l ++ after) ∧ l ≠ [] ∧
      r.span = ⟨start + byteLength before, start + byteLength before + byteLength l⟩ ∧
      ∀ t, r = .ok t → lex l = (.ok t.value, l.length) := by
  generalize hrs : tokensFrom start 0 s = rs at h
  induction rs generalizing start s with
  | nil => cases h
  | cons r' rs ih =>
    rcases r' with ⟨e, span⟩ | t
    · obtain ⟨gap, l, rest, rfl, hl, hspan, rfl⟩ := exists_of_tokensFrom_error hrs
      obtain rfl := List.mem_singleton.mp h
      exact ⟨gap, l, rest, rfl, hl, hspan, nofun⟩
    · obtain ⟨gap, c, l, rest, rfl, -, -, hl, hspan, hrest⟩ := exists_of_tokensFrom hrs
      rcases List.mem_cons.mp h with rfl | h
      · refine ⟨gap, c :: l, rest, rfl, by simp, hspan, ?_⟩
        rintro t ⟨⟩
        exact hl
      · obtain ⟨before, l', after, rfl, hl', hspan', hlex⟩ := ih hrest h
        refine ⟨gap ++ (c :: l ++ before), l', after, by simp, hl', ?_, hlex⟩
        rw [hspan']
        simp only [byteLength_append, Nat.add_assoc]

theorem covers_of_mem_tokens (h : r ∈ tokens source) : Covers source r.span := by
  obtain ⟨before, l, after, rfl, hl, hspan, -⟩ := exists_of_mem_tokensFrom h
  exact ⟨before, l, after, rfl, hl, by simpa using hspan⟩

theorem bracketed_of_lex {l : List Char} (h : lex l = (.ok (.nested body opening), l.length)) :
    Bracketed body opening l := by
  cases written_of_lex_self h with
  | parens => exact .parens
  | bracket => exact .bracket

/-- A token with an expression of its own stands where that expression is in brackets. -/
theorem exists_of_nested_mem (h : .ok ⟨.nested body opening, place⟩ ∈ tokens source) :
    ∃ before l after, source = before ++ (l ++ after) ∧ Bracketed body opening l ∧
      place = ⟨byteLength before, byteLength before + byteLength l⟩ := by
  obtain ⟨before, l, after, rfl, -, hspan, hlex⟩ := exists_of_mem_tokensFrom h
  exact ⟨before, l, after, rfl, bracketed_of_lex (hlex _ rfl), by simpa [Reading.span] using hspan⟩

theorem Encloses.of_mem (h : .ok ⟨.nested body opening, place⟩ ∈ tokens source)
    (hr : Encloses body r) : Encloses source (r.shift (place.start + opening)) := by
  obtain ⟨before, l, after, hs, hl, rfl⟩ := exists_of_nested_mem h
  exact .nested hs hl h hr

theorem Bracketed.exists_append {l : List Char} (h : Bracketed body opening l) :
    ∃ p q, l = p ++ (body ++ q) ∧ byteLength p = opening := by
  cases h with
  | parens => exact ⟨_, _, rfl, rfl⟩
  | bracket => exact ⟨_, _, rfl, rfl⟩

theorem span_shift (r : Reading) (k : Nat) : (r.shift k).span = r.span.shift k := by
  rcases r with ⟨e, span⟩ | t <;> rfl

theorem Encloses.covers (h : Encloses source r) : Covers source r.span := by
  induction h with
  | here h => exact covers_of_mem_tokens h
  | @nested _ before _ after _ _ _ hs hl h hr ih =>
    obtain ⟨p, q, rfl, hp⟩ := hl.exists_append
    obtain ⟨before', l', after', rfl, hne, hspan⟩ := ih
    refine ⟨before ++ (p ++ before'), l', after' ++ (q ++ after), by simp [hs], hne, ?_⟩
    rw [span_shift, hspan, ← hp, Span.shift]
    simp only [byteLength_append, Span.mk.injEq]
    omega

end ShellCore.Arith

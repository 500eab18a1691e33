import ShellCore.Proofs.Arith.Placement

/-! How variables are written, and where the texts in brackets stand. -/

namespace ShellCore.Arith

open Text

variable {source text l s : List Char} {name : String} {span : Span} {offset : Nat}

/-- The ways to write a variable of the name. -/
inductive Names (name : List Char) : List Char → Prop
  | bare : Names name name
  | dollar : Names name ('$' :: name)
  | braces : Names name ('$' :: '\x7b' :: (name ++ ['\x7d']))

/-- The variable is what stands at the span. -/
def RefersTo (source : List Char) (name : String) (span : Span) : Prop :=
  ∃ before l after, source = before ++ (l ++ after) ∧ Names name.toList l ∧
    span = ⟨byteLength before, byteLength before + byteLength l⟩

/-- The text is the source, or stands in brackets in it at whatever depth, so many bytes behind its
start. -/
inductive StandsAt (text : List Char) : List Char → Nat → Prop
  | itself : StandsAt text text 0
  | nested {source body : List Char} {opening offset : Nat} {place : Span}
    (h : .ok ⟨.nested body opening, place⟩ ∈ tokens source) (hs : StandsAt text body offset) :
    StandsAt text source (offset + (place.start + opening))

/-- What a variable is read from is one of the ways to write it. -/
theorem names_of_lex (h : lex l = (.ok (.variable name), l.length)) : Names name.toList l := by
  cases written_of_lex_self h with
  | name =>
    rw [String.toList_ofList]
    exact .bare
  | dollar | special =>
    rw [String.toList_ofList]
    exact .dollar
  | braces =>
    rw [String.toList_ofList]
    exact .braces

theorem refersTo_of_mem (h : .ok ⟨.variable name, span⟩ ∈ tokens source) :
    RefersTo source name span := by
  obtain ⟨before, l, after, rfl, -, hspan, hlex⟩ := exists_of_mem_tokensFrom h
  exact ⟨before, l, after, rfl, names_of_lex (hlex _ rfl), by simpa [Reading.span] using hspan⟩

namespace StandsAt

theorem exists_append (h : StandsAt text source offset) :
    ∃ p q, source = p ++ (text ++ q) ∧ byteLength p = offset := by
  induction h with
  | itself => exact ⟨[], [], by simp, rfl⟩
  | nested h hs ih =>
    obtain ⟨before, l, after, rfl, hl, rfl⟩ := exists_of_nested_mem h
    obtain ⟨p, q, rfl, hp⟩ := hl.exists_append
    obtain ⟨p', q', rfl, hp'⟩ := ih
    refine ⟨before ++ (p ++ p'), q' ++ (q ++ after), by simp, ?_⟩
    simp only [byteLength_append]
    omega

/-- Only the source itself has its own start. -/
theorem offset_eq_zero_iff (h : StandsAt text source offset) : offset = 0 ↔ text = source := by
  constructor
  · intro ho
    cases h with
    | itself => rfl
    | nested hn hs =>
      obtain ⟨before, l, after, -, hl, rfl⟩ := exists_of_nested_mem hn
      cases hl <;> simp at ho
  · rintro rfl
    obtain ⟨p, q, he, rfl⟩ := h.exists_append
    have hl := congrArg List.length he
    simp only [List.length_append] at hl
    obtain rfl : p = [] := List.eq_nil_of_length_eq_zero (by omega)
    rfl

theorem refersTo (h : StandsAt text source offset) (hr : RefersTo text name span) :
    RefersTo source name (span.shift offset) := by
  obtain ⟨before, l, after, rfl, hl, rfl⟩ := hr
  obtain ⟨p, q, rfl, hp⟩ := h.exists_append
  refine ⟨p ++ before, l, after ++ q, by simp, hl, ?_⟩
  simp only [Span.shift, byteLength_append, hp, Span.mk.injEq]
  omega

end StandsAt

end ShellCore.Arith

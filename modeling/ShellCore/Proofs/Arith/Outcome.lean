import ShellCore.Arith.Access
import ShellCore.Proofs.Effect

/-! How evaluations end, and when two of them end alike. -/

namespace ShellCore.Arith

variable {σ ρ ω α β : Type}

/-- What a computation makes of a state: its result or error, and the state that it leaves. -/
def outcome (x : EvalM σ ρ ω α) (s : σ) : Except (Error ρ ω) α × σ := x.run.run s

@[simp] theorem outcome_pure (a : α) (s : σ) : outcome (pure a : EvalM σ ρ ω α) s = (.ok a, s) :=
  rfl

@[simp] theorem outcome_fail (cause : Cause ρ ω) (span : Span) (s : σ) :
    outcome (fail cause span : EvalM σ ρ ω α) s = (.error ⟨cause, span⟩, s) := rfl

theorem outcome_bind (x : EvalM σ ρ ω α) (k : α → EvalM σ ρ ω β) (s : σ) :
    outcome (x >>= k) s =
      match outcome x s with
      | (.ok a, s') => outcome (k a) s'
      | (.error e, s') => (.error e, s') := by
  rcases h : outcome x s with ⟨r, s'⟩
  cases r with
  | error e => exact run_bind_of_error h k
  | ok a => exact run_bind_of_ok h k

theorem outcome_adapt (locate : Error ρ ω → Error ρ ω) (x : EvalM σ ρ ω α) (s : σ) :
    outcome (ExceptT.adapt locate x) s = ((outcome x s).1.mapError locate, (outcome x s).2) := rfl

@[simp] theorem fail_bind (cause : Cause ρ ω) (span : Span) (k : α → EvalM σ ρ ω β) :
    (fail cause span >>= k) = fail cause span := rfl

/-- The evaluation stops as a stack is full. -/
def Overflows (x : EvalM σ ρ ω α) (s : σ) : Prop :=
  ∃ span s', outcome x s = (.error ⟨.stackOverflow, span⟩, s')

theorem Overflows.bind {x : EvalM σ ρ ω α} {s : σ} (h : Overflows x s) (k : α → EvalM σ ρ ω β) :
    Overflows (x >>= k) s := by
  obtain ⟨span, s', h⟩ := h
  exact ⟨span, s', by rw [outcome_bind, h]⟩

/-- Both computations do the same, except where the first one stops as a stack is full. -/
def Agrees (x y : EvalM σ ρ ω α) : Prop := ∀ s, outcome x s = outcome y s ∨ Overflows x s

namespace Agrees

variable {x y z : EvalM σ ρ ω α} {k l : α → EvalM σ ρ ω β}

theorem refl (x : EvalM σ ρ ω α) : Agrees x x := fun _ => .inl rfl

theorem of_eq (h : x = y) : Agrees x y := h ▸ refl x

theorem trans (h : Agrees x y) (h' : Agrees y z) : Agrees x z := by
  intro s
  rcases h s with he | ho
  · rcases h' s with he' | ⟨span, s', ho⟩
    · exact .inl (he.trans he')
    · exact .inr ⟨span, s', he.trans ho⟩
  · exact .inr ho

theorem bind (h : Agrees x y) (hk : ∀ a, Agrees (k a) (l a)) : Agrees (x >>= k) (y >>= l) := by
  intro s
  rcases h s with he | ho
  · rcases hy : outcome y s with ⟨r, s'⟩
    have hx : outcome x s = (r, s') := he.trans hy
    cases r with
    | error e => exact .inl (by rw [outcome_bind, outcome_bind, hx, hy])
    | ok a =>
      rcases hk a s' with hs | ⟨span, t, ht⟩
      · exact .inl (by rw [outcome_bind, outcome_bind, hx, hy]; exact hs)
      · exact .inr ⟨span, t, by rw [outcome_bind, hx]; exact ht⟩
  · exact .inr (ho.bind k)

/-- Only the start of a computation is replaced. -/
theorem bind_left (h : Agrees x y) (k : α → EvalM σ ρ ω β) : Agrees (x >>= k) (y >>= k) :=
  bind h fun a => refl (k a)

/-- Only the rest of a computation is replaced. -/
theorem bind_right (hk : ∀ a, Agrees (k a) (l a)) : Agrees (x >>= k) (x >>= l) :=
  bind (refl x) hk

/-- A step that does nothing unless a stack is full can be left out. -/
theorem bind_pure {a : α} {z : EvalM σ ρ ω β} (h : Agrees x (pure a)) (hk : Agrees (k a) z) :
    Agrees (x >>= k) z := by
  have hb : Agrees (x >>= k) (k a) := by simpa using bind h fun b => refl (k b)
  exact hb.trans hk

end Agrees

/-- Some state lets the computation end with the value. -/
def Yields (x : EvalM σ ρ ω α) (a : α) : Prop := ∃ s s', outcome x s = (.ok a, s')

theorem yields_pure {a b : α} : Yields (pure a : EvalM σ ρ ω α) b → b = a := by
  rintro ⟨s, s', h⟩
  simpa using (congrArg Prod.fst h).symm

theorem not_yields_fail {cause : Cause ρ ω} {span : Span} {a : α} :
    ¬ Yields (fail cause span : EvalM σ ρ ω α) a := by
  rintro ⟨s, s', h⟩
  simp at h

theorem yields_bind {x : EvalM σ ρ ω α} {k : α → EvalM σ ρ ω β} {b : β} (h : Yields (x >>= k) b) :
    ∃ a, Yields x a ∧ Yields (k a) b := by
  obtain ⟨s, s', h⟩ := h
  obtain ⟨a, t, hx, hk⟩ := exists_of_run_bind h
  exact ⟨a, ⟨s, t, hx⟩, t, s', hk⟩

/-- From a state with the first property the computation ends with a result and a state that have
the second one, or else with an error and a state that have the third one. -/
def Meets (pre : σ → Prop) (post : α → σ → Prop) (error : Error ρ ω → σ → Prop)
    (x : EvalM σ ρ ω α) : Prop :=
  ∀ s, pre s →
    match outcome x s with
    | (.ok a, s') => post a s'
    | (.error e, s') => error e s'

namespace Meets

variable {pre : σ → Prop} {post post' : α → σ → Prop} {post₂ : β → σ → Prop}
  {error : Error ρ ω → σ → Prop} {x : EvalM σ ρ ω α} {k : α → EvalM σ ρ ω β}

theorem pure {a : α} (h : ∀ s, pre s → post a s) :
    Meets pre post error (Pure.pure a : EvalM σ ρ ω α) := h

theorem fail {cause : Cause ρ ω} {span : Span} (h : ∀ s, pre s → error ⟨cause, span⟩ s) :
    Meets pre post error (Arith.fail cause span : EvalM σ ρ ω α) := h

theorem bind (hx : Meets pre post error x) (hk : ∀ a, Meets (post a) post₂ error (k a)) :
    Meets pre post₂ error (x >>= k) := by
  intro s hs
  have hx := hx s hs
  rw [outcome_bind]
  generalize outcome x s = r at hx
  rcases r with ⟨e | a, s'⟩
  · exact hx
  · exact hk a s' hx

theorem mono (h : Meets pre post error x) (hp : ∀ a s, post a s → post' a s) :
    Meets pre post' error x := by
  intro s hs
  have h := h s hs
  generalize outcome x s = r at h
  rcases r with ⟨e | a, s'⟩
  · exact h
  · exact hp a s' h

theorem and (h : Meets pre post error x) (h' : Meets pre post' error x) :
    Meets pre (fun a s => post a s ∧ post' a s) error x := by
  intro s hs
  have h := h s hs
  have h' := h' s hs
  generalize outcome x s = r at h h'
  rcases r with ⟨e | a, s'⟩
  · exact h
  · exact ⟨h, h'⟩

/-- What holds of the result alone may be used by what follows. -/
theorem bind_and {P : α → Prop} (hx : Meets pre (fun a s => pre s ∧ P a) error x)
    (hk : ∀ a, P a → Meets pre post₂ error (k a)) : Meets pre post₂ error (x >>= k) :=
  hx.bind fun a s hs => hk a hs.2 s hs.1

theorem adapt {error' : Error ρ ω → σ → Prop} {locate : Error ρ ω → Error ρ ω}
    (hx : Meets pre post error x) (hl : ∀ e s, error e s → error' (locate e) s) :
    Meets pre post error' (ExceptT.adapt locate x) := by
  intro s hs
  have hx := hx s hs
  rw [outcome_adapt]
  generalize outcome x s = r at hx
  rcases r with ⟨e | a, s'⟩
  · exact hl e s' hx
  · exact hx

end Meets

end ShellCore.Arith

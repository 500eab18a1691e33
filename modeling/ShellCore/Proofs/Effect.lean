/-! Relations that an action keeps between the states before and after it. -/

namespace ShellCore

variable {ε ε' σ α β : Type} {R : σ → σ → Prop}

theorem run_bind_of_run {x : StateM σ α} {s s' : σ} {a : α} (h : x.run s = (a, s'))
    (k : α → StateM σ β) : (x >>= k).run s = (k a).run s' := by
  rw [StateT.run_bind, h]
  rfl

theorem run_bind_of_ok {x : ExceptT ε (StateM σ) α} {s s' : σ} {a : α}
    (h : x.run.run s = (.ok a, s')) (k : α → ExceptT ε (StateM σ) β) :
    (x >>= k).run.run s = (k a).run.run s' := by
  show (x.run >>= ExceptT.bindCont k).run s = _
  rw [StateT.run_bind, h]
  rfl

theorem run_bind_of_error {x : ExceptT ε (StateM σ) α} {s s' : σ} {e : ε}
    (h : x.run.run s = (.error e, s')) (k : α → ExceptT ε (StateM σ) β) :
    (x >>= k).run.run s = (.error e, s') := by
  show (x.run >>= ExceptT.bindCont k).run s = _
  rw [StateT.run_bind, h]
  rfl

theorem exists_of_run_bind {x : ExceptT ε (StateM σ) α} {k : α → ExceptT ε (StateM σ) β}
    {s s' : σ} {b : β} (h : (x >>= k).run.run s = (.ok b, s')) :
    ∃ a t, x.run.run s = (.ok a, t) ∧ (k a).run.run t = (.ok b, s') := by
  rcases hx : x.run.run s with ⟨r, t⟩
  cases r with
  | error e =>
    rw [run_bind_of_error hx] at h
    cases h
  | ok a =>
    rw [run_bind_of_ok hx] at h
    exact ⟨a, t, rfl, h⟩

theorem run_lift {x : StateM σ α} {s s' : σ} {a : α} (h : x s = (a, s')) :
    (ExceptT.lift x : ExceptT ε (StateM σ) α).run.run s = (.ok a, s') := by
  show (Except.ok (x s).1, (x s).2) = _
  rw [h]

theorem run_of_run_lift {x : StateM σ α} {s s' : σ} {a : α}
    (h : (ExceptT.lift x : ExceptT ε (StateM σ) α).run.run s = (.ok a, s')) : x s = (a, s') := by
  injection h with ha hs
  injection ha with ha
  exact Prod.ext ha hs

theorem run_of_run_adapt {x : ExceptT ε (StateM σ) α} {f : ε → ε'} {s s' : σ} {a : α}
    (h : (ExceptT.adapt f x).run.run s = (.ok a, s')) : x.run.run s = (.ok a, s') := by
  rcases hx : x.run.run s with ⟨r, t⟩
  have hr : (ExceptT.adapt f x).run.run s = (r.mapError f, t) := by
    show ((x.run.run s).1.mapError f, (x.run.run s).2) = _
    rw [hx]
  rw [hr] at h
  cases r with
  | error e => cases h
  | ok b =>
    cases h
    rfl

/-- The state that the action leaves is related to the one before, even if the action fails. -/
def Maintains (R : σ → σ → Prop) (x : ExceptT ε (StateM σ) α) : Prop := ∀ s, R s (x.run.run s).2

namespace Maintains

variable {x : ExceptT ε (StateM σ) α} {k : α → ExceptT ε (StateM σ) β}

theorem mono {R' : σ → σ → Prop} (h : Maintains R x) (hr : ∀ s s', R s s' → R' s s') :
    Maintains R' x := fun s => hr s _ (h s)

theorem lift {x : StateM σ α} (h : ∀ s, R s (x s).2) :
    Maintains R (ExceptT.lift x : ExceptT ε (StateM σ) α) := h

theorem modify {f : σ → σ} (h : ∀ s, R s (f s)) :
    Maintains R (modify f : ExceptT ε (StateM σ) PUnit) := h

theorem adapt (h : Maintains R x) (f : ε → ε') : Maintains R (ExceptT.adapt f x) := h

theorem bind [Trans R R R] (hx : Maintains R x) (hk : ∀ a, Maintains R (k a)) :
    Maintains R (x >>= k) := by
  intro s
  rcases h : x.run.run s with ⟨r, s'⟩
  have hs : R s s' := by
    have := hx s
    rwa [h] at this
  cases r with
  | ok a =>
    rw [run_bind_of_ok h]
    exact Trans.trans hs (hk a s')
  | error e =>
    rw [run_bind_of_error h]
    exact hs

variable [Std.Refl R]

theorem pure (a : α) : Maintains R (Pure.pure a : ExceptT ε (StateM σ) α) :=
  fun s => Std.Refl.refl s

theorem throw (e : ε) : Maintains R (MonadExcept.throw e : ExceptT ε (StateM σ) α) :=
  fun s => Std.Refl.refl s

theorem get : Maintains R (MonadState.get : ExceptT ε (StateM σ) σ) := fun s => Std.Refl.refl s

end Maintains

end ShellCore

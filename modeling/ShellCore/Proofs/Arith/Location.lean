import ShellCore.Proofs.Arith.Expansion
import ShellCore.Proofs.Arith.Origin

/-! Where errors are: at tokens of the text, or at the variables whose values have them. -/

namespace ShellCore.Arith

open Text

variable {σ ρ ω α : Type}

/-- The error points at a token of the source or of an expression in brackets in it, and at the
variable where there is a note. -/
def Blamed (source : List Char) (e : Error ρ ω) (p : σ × Option String) : Prop :=
  (∃ r, Encloses source r ∧ e.span = r.span) ∧
    ∀ name, p.2 = some name → Encloses source (.ok ⟨.variable name, e.span⟩)

variable {source body : List Char} {opening : Nat} {place span : Span} {e : Error ρ ω}
  {p : σ × Option String} {access : Access σ ρ ω} {limits : Limits} {name : String}

namespace Blamed

theorem of_quiet (hp : IsPlace source span) (hq : p.2 = none) (c : Cause ρ ω) :
    Blamed source ⟨c, span⟩ p := by
  obtain ⟨r, hr, hspan⟩ := hp
  exact ⟨⟨r, .here hr, hspan.symm⟩, by simp [hq]⟩

/-- Whatever is noted, if it is the variable at fault. -/
theorem of_variable (h : .ok ⟨.variable name, span⟩ ∈ tokens source) (hn : ∀ n ∈ p.2, n = name)
    (c : Cause ρ ω) : Blamed source ⟨c, span⟩ p := by
  refine ⟨⟨_, .here h, rfl⟩, fun n hp => ?_⟩
  obtain rfl := hn n hp
  exact .here h

theorem shift (hn : .ok ⟨.nested body opening, place⟩ ∈ tokens source) (h : Blamed body e p) :
    Blamed source ⟨e.cause, e.span.shift (place.start + opening)⟩ p := by
  obtain ⟨⟨r, hr, hspan⟩, hname⟩ := h
  refine ⟨⟨_, .of_mem hn hr, ?_⟩, fun name hp => .of_mem hn (hname name hp)⟩
  rw [span_shift, ← hspan]

end Blamed

/-- What is noted when a variable has been read. -/
theorem outcome_get_noting (s : σ) (span : Span) :
    outcome ((notingFrame access limits source).get name span) (s, none) =
      match access.get name s with
      | (.ok value, s') =>
        (.ok value, s', if isExpression (value.getD "") then some name else none)
      | (.error c, s') => (.error ⟨.unreadable c, span⟩, s', none) := by
  have hl : outcome ((notingFrame access limits source).access.get name :
      EvalM (σ × Option String) ρ ω (Except ρ (Option String))) (s, none) =
      (.ok (access.get name s).1, (access.get name s).2,
        noteCall (.get (ω := ω) name (access.get name s).1) none) := rfl
  rw [Frame.get, outcome_bind, hl]
  rcases access.get name s with ⟨c | - | value, s'⟩ <;> rfl

theorem Meets.get_noting (h : .ok ⟨.variable name, span⟩ ∈ tokens source) :
    Meets (fun p => p.2 = none)
      (fun value p => p.2 = if isExpression (value.getD "") then some name else none)
      (Blamed source) ((notingFrame access limits source).get name span) := by
  rintro ⟨s, _⟩ rfl
  rw [outcome_get_noting]
  rcases access.get name s with ⟨c | value, s'⟩
  · exact .of_quiet ⟨_, h, rfl⟩ rfl _
  · rfl

theorem Meets.whileNoted (name : String) (x : EvalM σ ρ ω α) :
    Meets (fun _ => True) (fun _ p => p.2 = none) (fun _ p => p.2 = some name)
      (Arith.whileNoted name x) := by
  rintro p -
  rw [outcome_whileNoted]
  rcases outcome x p.1 with ⟨e | a, s⟩ <;> rfl

/-- Where the value of a variable is evaluated the variable is noted, and errors leave the note. -/
theorem Meets.descend_value (h : .ok ⟨.variable name, span⟩ ∈ tokens source) (text : List Char) :
    Meets (fun p => p.2 = some name) (fun _ p => p.2 = none) (Blamed source)
      ((notingFrame access limits source).descend text span (Frame.blameVariable text span)) := by
  have hn : ∀ p : σ × Option String, p.2 = some name → ∀ n ∈ p.2, n = name :=
    fun p hp n hn => Option.some.inj (hn.symm.trans hp)
  obtain ⟨stackDepth, levels⟩ := limits
  cases levels with
  | zero => exact .fail fun p hp => .of_variable h (hn p hp) _
  | succ levels =>
    refine Meets.adapt ?_ fun e p hp => Blamed.of_variable h (hn p hp) _
    rintro ⟨s, _⟩ rfl
    exact Meets.whileNoted name _ (s, some name) trivial

/-- An error in the value of the variable stands where the variable does, and no note is left once
the value is known. -/
theorem Meets.resolve_noting (h : .ok ⟨.variable name, span⟩ ∈ tokens source) :
    Meets (fun p => p.2 = none) (fun _ p => p.2 = none) (Blamed source)
      ((notingFrame access limits source).resolve name span) := by
  refine (Meets.get_noting h).bind fun value => ?_
  cases value with
  | none => exact .pure fun _ hp => hp
  | some value =>
    dsimp only
    cases he : (trim value.toList).isEmpty with
    | true => exact .pure fun p hp => by simpa [isExpression, he] using hp
    | false =>
      cases hc : constant? (trim value.toList) with
      | some n => exact .pure fun p hp => by simpa [isExpression, he, hc] using hp
      | none =>
        intro p hp
        have hnote : p.2 = some name := by simpa [isExpression, he, hc] using hp
        exact Meets.descend_value h _ p hnote

theorem Meets.assign_noting (h : .ok ⟨.variable name, span⟩ ∈ tokens source) (n : Int64) :
    Meets (fun p => p.2 = none) (fun _ p => p.2 = none) (Blamed source)
      ((notingFrame access limits source).assign name n span) := by
  rintro ⟨s, _⟩ rfl
  have hl : outcome ((notingFrame access limits source).access.assign name
        (Decimal.text n.toInt) span :
      EvalM (σ × Option String) ρ ω (Except ω Unit)) (s, none) =
      (.ok (access.assign name (Decimal.text n.toInt) span s).1,
        (access.assign name (Decimal.text n.toInt) span s).2, none) := rfl
  rw [Frame.assign, outcome_bind, hl]
  rcases access.assign name (Decimal.text n.toInt) span s with ⟨c | -, s'⟩
  · exact Blamed.of_quiet ⟨_, h, rfl⟩ rfl _
  · rfl

/-- An error in brackets is seen from outside where it stands there. -/
theorem Meets.descend_brackets (h : .ok ⟨.nested body opening, place⟩ ∈ tokens source)
    (hb : ∀ levels < limits.nestingDepth,
      Meets (fun p => p.2 = none) (fun _ p => p.2 = none) (Blamed body)
        (notingFrame access ⟨limits.stackDepth, levels⟩ body).integer) :
    Meets (fun p => p.2 = none) (fun _ p => p.2 = none) (Blamed source)
      ((notingFrame access limits source).descend body place
        fun e => ⟨e.cause, e.span.shift (place.start + opening)⟩) := by
  obtain ⟨stackDepth, levels⟩ := limits
  cases levels with
  | zero => exact .fail fun p hp => .of_quiet ⟨_, h, rfl⟩ hp _
  | succ levels =>
    refine Meets.adapt ?_ fun e p he => Blamed.shift h he
    rintro ⟨s, _⟩ rfl
    exact hb levels (Nat.lt_succ_self levels) (s, none) rfl

/-- At each level errors are where they should be, as those of the levels below are. -/
theorem blames_notingFrame (access : Access σ ρ ω) (limits : Limits) (source : List Char) :
    (notingFrame access limits source).Blames (fun p => p.2 = none) (Blamed source) := by
  obtain ⟨stackDepth, levels⟩ := limits
  induction levels using Nat.strong_induction_on generalizing source with
  | _ levels ih => exact {
      own := fun hp c p hq => .of_quiet hp hq c
      get := fun h => (Meets.get_noting h).mono fun value p hp he => by simpa [he] using hp
      resolve := .resolve_noting
      assign := .assign_noting
      descend := fun h => .descend_brackets h fun levels hl => (ih levels hl _).integer }

/-- An error points at one token, or at one thing that is no token, of the text that is evaluated or
of an expression in brackets in it, at whatever depth. An error in the value of a variable points at
the variable, which is the outermost one if values have variables of their own. The error of a
command in place of the expression is not about a part of the text. -/
theorem errors_point_at_tokens (access : Access σ ρ ω) (limits : Limits) (expression : String)
    (s s' : σ) (e : Error ρ ω)
    (h : outcome (expandWithin access limits expression) s = (.error e, s'))
    (hc : ∀ message, e.cause ≠ .commandSubstitution message) :
    ∃ source t t' note,
      outcome (expandWords access (withoutEnvelope expression.toList)) s = (.ok source, t) ∧
      outcome (frame access limits source).value t = (.error e, t') ∧
      outcome (notingFrame access limits source).value (t, none) = (.error e, t', note) ∧
      Covers source e.span ∧
      (∃ r, Encloses source r ∧ e.span = r.span) ∧
      ∀ name, note = some name → Encloses source (.ok ⟨.variable name, e.span⟩) := by
  obtain ⟨source, t, t', hw, hv⟩ := exists_of_expandWithin_error h hc
  have hblamed := (blames_notingFrame access limits source).value (t, none) rfl
  obtain ⟨hr, hs⟩ := outcome_notingFrame access limits source t none
  rcases hn : outcome (notingFrame access limits source).value (t, none) with ⟨r, t₁, note⟩
  rw [hn, hv] at hr hs
  obtain ⟨rfl, rfl⟩ : r = .error e ∧ t₁ = t' := ⟨hr, hs⟩
  rw [hn] at hblamed
  obtain ⟨⟨r, henc, hspan⟩, hname⟩ := hblamed
  exact ⟨source, t, t₁, note, hw, hv, hn, hspan ▸ henc.covers, ⟨r, henc, hspan⟩, hname⟩

/-- The value of `x` is no expression. That is said of `x` in the brackets. -/
theorem error_in_brackets_points_at_variable :
    let vars : Bindings := .ofList [("x", "1+")]
    let e : Error Empty Empty := ⟨.invalidVariableValue "1+", ⟨4, 5⟩⟩
    (outcome (expandWithin Bindings.access {} "2*$[x]") vars).1 = .error e ∧
      (outcome (notingFrame Bindings.access {} "2*$[x]".toList).value (vars, none)).2.2 =
        some "x" ∧
      Encloses "2*$[x]".toList (.ok ⟨.variable "x", e.span⟩) := by
  intro vars e
  have h : (outcome (expandWithin Bindings.access {} "2*$[x]") vars).1 = .error e := by
    decide +kernel
  have hwords : outcome (expandWords Bindings.access (withoutEnvelope "2*$[x]".toList)) vars =
      (.ok "2*$[x]".toList, vars) := by
    rfl
  have hnote : (outcome (notingFrame Bindings.access {} "2*$[x]".toList).value (vars, none)).2.2 =
      some "x" := by
    decide +kernel
  obtain ⟨source, t, t', note, hw, -, hn, -, -, hname⟩ :=
    errors_point_at_tokens Bindings.access {} "2*$[x]" vars _ e (Prod.ext h rfl) nofun
  obtain ⟨rfl, rfl⟩ : "2*$[x]".toList = source ∧ vars = t := by
    simpa using hwords.symm.trans hw
  refine ⟨h, hnote, hname "x" ?_⟩
  rw [hn] at hnote
  exact hnote

end ShellCore.Arith

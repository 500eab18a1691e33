import ShellCore.Proofs.Arith.Expansion
import ShellCore.Proofs.Arith.Origin
import ShellCore.Proofs.Arith.Reference

/-! Where assignments are said to stand, in texts in brackets and outside of them. -/

namespace ShellCore.Arith

open Text Comparison

variable {σ ρ ω α : Type}

/-- An assignment, with its answer, that is made as the text is evaluated. -/
structure Assigned (ω : Type) where
  text : List Char
  name : String
  value : String
  span : Span
  answer : Except ω Unit
  deriving DecidableEq

/-- What has been seen of an evaluation. -/
structure Sighting (ω : Type) where
  /-- The value of a variable is evaluated now. -/
  inValue : Bool := false
  /-- The assignments that no value of a variable has made. -/
  assigned : List (Assigned ω) := []

/-- What has been seen after a call as the text is evaluated. -/
def see (text : List Char) : Call ρ ω → Sighting ω → Sighting ω
  | .get _ answer, seen =>
    { seen with inValue := match answer with
        | .ok (some value) => isExpression value
        | _ => false }
  | .assign name value span answer, seen =>
    { seen with assigned := seen.assigned ++ [⟨text, name, value, span, answer⟩] }
  | _, seen => seen

/-- Nothing is seen of what happens in the value of a variable. -/
def unseen (x : EvalM σ ρ ω α) : EvalM (σ × Sighting ω) ρ ω α :=
  ExceptT.mk fun p => ((outcome x p.1).1, (outcome x p.1).2, { p.2 with inValue := false })

/-- Evaluates what is nested in an expression, and sees the assignments unless that is the value of
a variable. -/
def evaluateSeeing (a : Access σ ρ ω) (stackDepth : Nat) :
    (levels : Nat) → Option (List Char → EvalM (σ × Sighting ω) ρ ω Int64)
  | 0 => none
  | levels + 1 => some fun text => ExceptT.mk fun p =>
    if p.2.inValue then
      outcome (unseen
        (Frame.integer ⟨a, stackDepth, text, evaluateNested a stackDepth levels⟩)) p
    else
      outcome (Frame.integer
        ⟨a.beside (see text), stackDepth, text, evaluateSeeing a stackDepth levels⟩) p

def seeingFrame (a : Access σ ρ ω) (limits : Limits) (source : List Char) :
    Frame (σ × Sighting ω) ρ ω :=
  ⟨a.beside (see source), limits.stackDepth, source,
    evaluateSeeing a limits.stackDepth limits.nestingDepth⟩

theorem inner_evaluateSeeing (a : Access σ ρ ω) (stackDepth levels : Nat) :
    besides.Inner (evaluateSeeing a stackDepth levels) (evaluateNested a stackDepth levels) := by
  induction levels with
  | zero => exact .none
  | succ levels ih =>
    refine .some fun body => ?_
    have hunseen : ∀ x : EvalM σ ρ ω Int64, besides.Simulates Eq (unseen x) x :=
      fun _ => simulates_besides_iff.mpr fun _ => ⟨rfl, rfl⟩
    rintro ⟨s, inValue, assigned⟩ _ rfl
    cases inValue with
    | false =>
      exact (frames_beside (see body) a ih body).integer (Accesses.readings_refl body) (s, _) s rfl
    | true => exact hunseen _ (s, _) s rfl

/-- To be seen changes nothing about an evaluation. -/
theorem outcome_seeingFrame (a : Access σ ρ ω) (limits : Limits) (source : List Char)
    (p : σ × Sighting ω) :
    (outcome (seeingFrame a limits source).value p).1 =
        (outcome (frame a limits source).value p.1).1 ∧
      (outcome (seeingFrame a limits source).value p).2.1 =
        (outcome (frame a limits source).value p.1).2 :=
  outcome_value_beside (see source) a limits (inner_evaluateSeeing a _ _) source p

/-- The assignment stands in the source, where `failed` tells what has failed and where. -/
def Assigned.PlacedIn (a : Assigned ω) (source : List Char) (failed : ω → Span → Prop) : Prop :=
  ∃ offset, StandsAt a.text source offset ∧ .ok ⟨.variable a.name, a.span⟩ ∈ tokens a.text ∧
    ∀ c, a.answer = .error c → failed c (a.span.shift offset)

/-- All assignments behind the former ones stand in the source. -/
def Traces (source : List Char) (former : List (Assigned ω)) (failed : ω → Span → Prop)
    (assigned : List (Assigned ω)) : Prop :=
  ∃ new, assigned = former ++ new ∧ ∀ a ∈ new, a.PlacedIn source failed

/-- No value of a variable is evaluated, and no assignment has failed. -/
def Quiet (source : List Char) (former : List (Assigned ω)) (p : σ × Sighting ω) : Prop :=
  p.2.inValue = false ∧ Traces source former (fun _ _ => False) p.2.assigned

/-- Only an assignment that the error is about has failed. -/
def Stopped (source : List Char) (former : List (Assigned ω)) (e : Error ρ ω)
    (p : σ × Sighting ω) : Prop :=
  Traces source former (fun c span => e = ⟨.unassignable c, span⟩) p.2.assigned

variable {a : Assigned ω} {source body : List Char} {former assigned assigned' : List (Assigned ω)}
  {failed failed' : ω → Span → Prop} {e : Error ρ ω} {name : String} {place span : Span}
  {opening : Nat} {p : σ × Sighting ω} {access : Access σ ρ ω} {limits : Limits}

theorem Assigned.PlacedIn.mono (h : a.PlacedIn source failed)
    (hf : ∀ c span, failed c span → failed' c span) : a.PlacedIn source failed' := by
  obtain ⟨offset, hs, ht, hc⟩ := h
  exact ⟨offset, hs, ht, fun c ha => hf c _ (hc c ha)⟩

namespace Traces

theorem mono (h : Traces source former failed assigned)
    (hf : ∀ c span, failed c span → failed' c span) : Traces source former failed' assigned := by
  obtain ⟨new, rfl, hn⟩ := h
  exact ⟨new, rfl, fun a ha => (hn a ha).mono hf⟩

/-- Where nothing had failed, no error is about an assignment made before it. -/
theorem of_none (h : Traces source former (fun _ _ => False) assigned) :
    Traces source former failed assigned := h.mono fun _ _ hf => hf.elim

theorem refl (source : List Char) (former : List (Assigned ω)) (failed : ω → Span → Prop) :
    Traces source former failed former := ⟨[], by simp, nofun⟩

/-- One more assignment is to a variable of the source itself. -/
theorem concat (h : Traces source former (fun _ _ => False) assigned)
    (hv : .ok ⟨.variable name, span⟩ ∈ tokens source) (value : String) {answer : Except ω Unit}
    (hf : ∀ c, answer = .error c → failed c span) :
    Traces source former failed (assigned ++ [⟨source, name, value, span, answer⟩]) := by
  have h : Traces source former failed assigned := h.of_none
  obtain ⟨new, rfl, hn⟩ := h
  refine ⟨new ++ [⟨source, name, value, span, answer⟩], List.append_assoc .., fun a ha => ?_⟩
  rcases List.mem_append.mp ha with ha | ha
  · exact hn a ha
  · obtain rfl := List.mem_singleton.mp ha
    exact ⟨0, .itself, hv, hf⟩

/-- What stands in the body stands in the source, behind the opening bracket. -/
theorem nested (h : Traces source former (fun _ _ => False) assigned)
    (hn : .ok ⟨.nested body opening, place⟩ ∈ tokens source)
    (h' : Traces body assigned failed assigned')
    (hf : ∀ c span, failed c span → failed' c (span.shift (place.start + opening))) :
    Traces source former failed' assigned' := by
  have h : Traces source former failed' assigned := h.of_none
  obtain ⟨new, rfl, hnew⟩ := h
  obtain ⟨new', rfl, hnew'⟩ := h'
  refine ⟨new ++ new', List.append_assoc .., fun a ha => ?_⟩
  rcases List.mem_append.mp ha with ha | ha
  · exact hnew a ha
  · obtain ⟨offset, hs, hv, hc⟩ := hnew' a ha
    refine ⟨_, .nested hn hs, hv, fun c ha => ?_⟩
    rw [← Span.shift_shift]
    exact hf c _ (hc c ha)

end Traces

theorem Quiet.stopped (h : Quiet source former p) (e : Error ρ ω) : Stopped source former e p :=
  h.2.of_none

/-- What is seen when a variable is read. -/
theorem outcome_get_seeing (s : σ) (seen : Sighting ω) :
    outcome ((seeingFrame access limits source).get name span) (s, seen) =
      match access.get name s with
      | (.ok value, s') =>
        (.ok value, s', { seen with inValue := isExpression (value.getD "") })
      | (.error c, s') => (.error ⟨.unreadable c, span⟩, s', { seen with inValue := false }) := by
  have hl : outcome ((seeingFrame access limits source).access.get name :
      EvalM (σ × Sighting ω) ρ ω (Except ρ (Option String))) (s, seen) =
      (.ok (access.get name s).1, (access.get name s).2,
        see source (.get (ω := ω) name (access.get name s).1) seen) := rfl
  rw [Frame.get, outcome_bind, hl]
  rcases access.get name s with ⟨c | - | value, s'⟩ <;> rfl

theorem Meets.get_seeing :
    Meets (Quiet source former)
      (fun value p => p.2.inValue = isExpression (value.getD "") ∧
        Traces source former (fun _ _ => False) p.2.assigned)
      (Stopped source former) ((seeingFrame access limits source).get name span) := by
  rintro ⟨s, seen⟩ ⟨-, ht⟩
  rw [outcome_get_seeing]
  rcases access.get name s with ⟨c | value, s'⟩
  · exact ht.of_none
  · exact ⟨rfl, ht⟩

theorem Meets.unseen (x : EvalM σ ρ ω α) :
    Meets (fun p => Traces source former (fun _ _ => False) p.2.assigned)
      (fun _ => Quiet source former)
      (fun _ p => Traces source former (fun _ _ => False) p.2.assigned) (Arith.unseen x) := by
  intro p hp
  have ho : outcome (Arith.unseen x) p =
      ((outcome x p.1).1, (outcome x p.1).2, { p.2 with inValue := false }) := rfl
  rw [ho]
  rcases outcome x p.1 with ⟨e | a, s⟩
  · exact hp
  · exact ⟨rfl, hp⟩

/-- Whatever the value of a variable does, nothing of it is seen. -/
theorem Meets.descend_unseen (text : List Char) (locate : Error ρ ω → Error ρ ω) :
    Meets (fun p => p.2.inValue = true ∧ Traces source former (fun _ _ => False) p.2.assigned)
      (fun _ => Quiet source former) (Stopped source former)
      ((seeingFrame access limits source).descend text span locate) := by
  obtain ⟨stackDepth, levels⟩ := limits
  cases levels with
  | zero => exact .fail fun p hp => hp.2.of_none
  | succ levels =>
    refine Meets.adapt ?_ fun e p hp => Traces.of_none hp
    rintro ⟨s, inValue, assigned⟩ ⟨hv, ht⟩
    obtain rfl : inValue = true := hv
    exact Meets.unseen _ (s, ⟨true, assigned⟩) ht

theorem Meets.resolve_seeing :
    Meets (Quiet source former) (fun _ => Quiet source former) (Stopped source former)
      ((seeingFrame access limits source).resolve name span) := by
  refine Meets.get_seeing.bind fun value => ?_
  cases value with
  | none => exact .pure fun _ hp => hp
  | some value =>
    dsimp only
    cases he : (trim value.toList).isEmpty with
    | true => exact .pure fun p hp => by simpa [Quiet, isExpression, he] using hp
    | false =>
      cases hc : constant? (trim value.toList) with
      | some n => exact .pure fun p hp => by simpa [Quiet, isExpression, he, hc] using hp
      | none =>
        intro p hp
        have hv : p.2.inValue = true := by simpa [isExpression, he, hc] using hp.1
        exact Meets.descend_unseen _ _ p ⟨hv, hp.2⟩

theorem Meets.assign_seeing (h : .ok ⟨.variable name, span⟩ ∈ tokens source) (n : Int64) :
    Meets (Quiet source former) (fun _ => Quiet source former) (Stopped source former)
      ((seeingFrame access limits source).assign name n span) := by
  rintro ⟨s, seen⟩ ⟨hv, ht⟩
  have hl : outcome ((seeingFrame access limits source).access.assign name
        (Decimal.text n.toInt) span :
      EvalM (σ × Sighting ω) ρ ω (Except ω Unit)) (s, seen) =
      (.ok (access.assign name (Decimal.text n.toInt) span s).1,
        (access.assign name (Decimal.text n.toInt) span s).2,
        see source (.assign (ρ := ρ) name (Decimal.text n.toInt) span
          (access.assign name (Decimal.text n.toInt) span s).1) seen) := rfl
  rw [Frame.assign, outcome_bind, hl]
  rcases access.assign name (Decimal.text n.toInt) span s with ⟨c | -, s'⟩
  · exact ht.concat h _ fun c' hc => by
      cases hc
      rfl
  · exact ⟨hv, ht.concat h _ nofun⟩

/-- An assignment in brackets stands where the brackets do. -/
theorem Meets.descend_seeing (h : .ok ⟨.nested body opening, place⟩ ∈ tokens source)
    (hb : ∀ levels < limits.nestingDepth, ∀ former,
      Meets (Quiet body former) (fun _ => Quiet body former) (Stopped body former)
        (seeingFrame access ⟨limits.stackDepth, levels⟩ body).integer) :
    Meets (Quiet source former) (fun _ => Quiet source former) (Stopped source former)
      ((seeingFrame access limits source).descend body place
        fun e => ⟨e.cause, e.span.shift (place.start + opening)⟩) := by
  obtain ⟨stackDepth, levels⟩ := limits
  cases levels with
  | zero => exact .fail fun p hp => hp.stopped _
  | succ levels =>
    rintro ⟨s, inValue, assigned⟩ ⟨hv, ht⟩
    obtain rfl : inValue = false := hv
    have hstopped : ∀ (e : Error ρ ω) (p : σ × Sighting ω), Stopped body assigned e p →
        Stopped source former ⟨e.cause, e.span.shift (place.start + opening)⟩ p :=
      fun e p he => ht.nested h he fun c span hc => by rw [hc]
    have hquiet : ∀ (n : Int64) (p : σ × Sighting ω), Quiet body assigned p →
        Quiet source former p := fun n p hq => ⟨hq.1, ht.nested h hq.2 fun _ _ hf => hf⟩
    have hi := ((hb levels (Nat.lt_succ_self levels) assigned).adapt hstopped).mono hquiet
    exact hi (s, ⟨false, assigned⟩) ⟨rfl, .refl body assigned _⟩

/-- At each level assignments are where they should be, as those of the levels below are. -/
theorem blames_seeingFrame (access : Access σ ρ ω) (limits : Limits) (source : List Char)
    (former : List (Assigned ω)) :
    (seeingFrame access limits source).Blames (Quiet source former) (Stopped source former) := by
  obtain ⟨stackDepth, levels⟩ := limits
  induction levels using Nat.strong_induction_on generalizing source former with
  | _ levels ih => exact {
      own := fun _ _ _ hq => hq.stopped _
      get := fun _ => Meets.get_seeing.mono fun value p hp he => ⟨hp.1.trans he, hp.2⟩
      resolve := fun _ => .resolve_seeing
      assign := .assign_seeing
      descend := fun h =>
        .descend_seeing h fun levels hl former => (ih levels hl _ former).integer }

/-- The span of an assignment is that of the variable in the text that is evaluated, which stands so
many bytes behind the start of the source. What comes of a failure is placed by the source. -/
structure Located (source : List Char) (result : Except (Error ρ ω) Value) (a : Assigned ω)
    (offset : Nat) : Prop where
  text : StandsAt a.text source offset
  inText : RefersTo a.text a.name a.span
  inSource : RefersTo source a.name (a.span.shift offset)
  own : a.span.shift offset = a.span ↔ a.text = source
  failed (c : ω) : a.answer = .error c → result = .error ⟨.unassignable c, a.span.shift offset⟩

theorem shift_eq_self_iff {offset : Nat} : span.shift offset = span ↔ offset = 0 := by
  obtain ⟨start, stop⟩ := span
  simp [Span.shift]

theorem Traces.located {seen : σ × Sighting ω} {result : Except (Error ρ ω) Value}
    (h : Traces source [] failed seen.2.assigned)
    (hf : ∀ c span, failed c span → result = .error ⟨.unassignable c, span⟩) :
    ∀ a ∈ seen.2.assigned, ∃ offset, Located source result a offset := by
  obtain ⟨new, he, hn⟩ := h
  rw [he, List.nil_append]
  intro a ha
  obtain ⟨offset, hs, ht, hc⟩ := hn a ha
  have hr := refersTo_of_mem ht
  exact ⟨offset, hs, hr, hs.refersTo hr, shift_eq_self_iff.trans hs.offset_eq_zero_iff,
    fun c ha => hf c _ (hc c ha)⟩

/-- Every assignment that is made as an expression is evaluated, or one in brackets in it at
whatever depth, is told the place of its variable in the text between the innermost brackets. That
is the place in the whole expression only for assignments outside of brackets. If the assignment
fails, the error is about the place in the whole expression. -/
theorem assignments_stand_in_brackets (access : Access σ ρ ω) (limits : Limits)
    (expression : String) (s : σ) :
    ∃ source t r t' seen,
      outcome (expandWords access (withoutEnvelope expression.toList)) s = (.ok source, t) ∧
      outcome (frame access limits source).value t = (r, t') ∧
      outcome (seeingFrame access limits source).value (t, {}) = (r, t', seen) ∧
      ∀ a ∈ seen.assigned, ∃ offset,
        Located source (outcome (expandWithin access limits expression) s).1 a offset := by
  obtain ⟨source, t, hw⟩ := exists_of_expandWords access (withoutEnvelope expression.toList) s
  obtain ⟨hr, hs⟩ := outcome_seeingFrame access limits source (t, {})
  have hm := (blames_seeingFrame access limits source []).value_of_read
    (fun p hp => hp.2) (fun _ => Meets.get_seeing.mono fun _ p hp => hp.2) (t, {})
    ⟨rfl, .refl source [] _⟩
  rcases ho : outcome (seeingFrame access limits source).value (t, {}) with ⟨r, t', seen⟩
  rw [ho] at hr hs hm
  have hv : outcome (frame access limits source).value t = (r, t') :=
    Prod.ext hr.symm hs.symm
  refine ⟨source, t, r, t', seen, hw, hv, ho, ?_⟩
  cases r with
  | ok value => exact Traces.located hm fun _ _ hf => hf.elim
  | error e =>
    refine Traces.located hm fun c span he => ?_
    subst he
    rw [outcome_expandWithin_of_error hw hv nofun]

/-- Variables that can be read but not assigned. -/
def Bindings.frozen : Access Bindings Empty Unit where
  get := Bindings.access.get
  assign _ _ _ := pure (.error ())
  expandWord := Bindings.access.expandWord
  substituteCommand := Bindings.access.substituteCommand
  setExitStatus := Bindings.access.setExitStatus

/-- The assignment to `y` is told the place of `x`, and the error the place of `y`. -/
theorem misplaced_assignment_in_brackets :
    let source := "x + $((y = 1))"
    (outcome (seeingFrame Bindings.frozen {} source.toList).value ({}, {})).2.2.assigned =
        [⟨"y = 1".toList, "y", "1", ⟨0, 1⟩, .error ()⟩] ∧
      (outcome (expandWithin Bindings.frozen {} source) {}).1 =
        .error ⟨.unassignable (), ⟨7, 8⟩⟩ ∧
      RefersTo source.toList "y" ⟨7, 8⟩ ∧ ¬ RefersTo source.toList "y" ⟨0, 1⟩ := by
  refine ⟨by decide +kernel, by decide +kernel, ⟨"x + $((".toList, "y".toList, " = 1))".toList,
    rfl, .bare, rfl⟩, ?_⟩
  rintro ⟨before, l, after, hs, hl, hspan⟩
  cases before with
  | nil => cases hl <;> cases hs
  | cons c before =>
    have hc := Char.utf8Size_pos c
    have hstart := congrArg Span.start hspan
    simp only [byteLength_cons] at hstart
    omega

end ShellCore.Arith

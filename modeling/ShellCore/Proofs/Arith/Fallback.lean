import ShellCore.Proofs.Arith.Effect
import ShellCore.Proofs.Arith.Expansion
import ShellCore.Proofs.Arith.Placement
import ShellCore.Proofs.Arith.Recording

/-! What becomes of an expression with a stray character: a command, unless its evaluation fails
before it gets there. -/

namespace ShellCore.Arith

open Text Comparison

variable {σ ρ ω α : Type}

namespace Call

def isCommand : Call ρ ω → Bool
  | .substituteCommand _ _ => true
  | _ => false

def isStatus : Call ρ ω → Bool
  | .setExitStatus _ => true
  | _ => false

def isAssignment : Call ρ ω → Bool
  | .assign _ _ _ _ => true
  | _ => false

end Call

/-- What is made of the expression when it is a command. -/
def commandResult (expression : String) : Except String String → Except (Error ρ ω) Value
  | .ok output => .ok (.text output)
  | .error message =>
    .error ⟨.commandSubstitution message, ⟨0, byteLength expression.toList⟩⟩

/-- The expression is run as one command, and nothing of it is evaluated to any effect. -/
structure Replaced (access : Access σ ρ ω) (limits : Limits) (expression : String) (s : σ) :
    Prop where
  once : ∃ answer,
    (calls access limits expression s).filter Call.isCommand =
      [.substituteCommand expression (some answer)] ∧
    (outcome (expandWithin access limits expression) s).1 = commandResult expression answer
  status : ∀ call ∈ calls access limits expression s, call.isStatus = false
  assignment : ∀ call ∈ calls access limits expression s, call.isAssignment = false

/-- Reads an expression up to its last token, or what is wrong with its text there. -/
def readBefore (access : Access σ ρ ω) (limits : Limits) (expression : String) :
    EvalM σ ρ ω Machine := do
  let source ← expandWords access (withoutEnvelope expression.toList)
  (frame access limits source).readAll {} (tokens source).dropLast

/-- No error but one at a stray character. -/
def ErrsAtStray (r : Except (Error ρ ω) α) : Prop :=
  ∀ e, r = .error e → e.cause = .token .strayCharacter

/-- The error that ends the evaluation, at the span unless there is one before. -/
def lastError (span : Span) : Except (Error ρ ω) α → Error ρ ω
  | .ok _ => ⟨.token .strayCharacter, span⟩
  | .error e => e

variable {access : Access σ ρ ω} {limits : Limits} {expression : String} {source s : List Char}
  {f : Frame σ ρ ω} {start : Nat} {span : Span} {e : TokenError} {t t' : σ}

/-- What is wrong with a text comes last. -/
theorem tokensFrom_of_error_mem (h : .error (e, span) ∈ tokensFrom start 0 s) :
    tokensFrom start 0 s = (tokensFrom start 0 s).dropLast ++ [.error (e, span)] := by
  generalize hrs : tokensFrom start 0 s = rs at h
  induction rs generalizing start s with
  | nil => cases h
  | cons r rs ih =>
    rcases r with ⟨e', span'⟩ | t
    · obtain ⟨gap, l, rest, -, -, -, rfl⟩ := exists_of_tokensFrom_error hrs
      rw [← List.mem_singleton.mp h]
      rfl
    · obtain ⟨gap, c, l, rest, rfl, -, -, hl, hspan, hrest⟩ := exists_of_tokensFrom hrs
      have h := (List.mem_cons.mp h).resolve_left nofun
      rw [List.dropLast_cons_of_ne_nil (List.ne_nil_of_mem h), List.cons_append, ← ih hrest h]

theorem readAll_append (m : Machine) (rs rs' : List Reading) :
    f.readAll m (rs ++ rs') = (do f.readAll (← f.readAll m rs) rs') := by
  induction rs generalizing m with
  | nil => rfl
  | cons r rs ih =>
    rcases r with ⟨e, span⟩ | t
    · rfl
    · simp only [List.cons_append, Frame.readAll, ih, bind_assoc]

/-- What is wrong with the text ends the evaluation once all before it has been read. -/
theorem value_of_error_mem (h : .error (e, span) ∈ tokens f.source) :
    f.value = (do
      let _ ← f.readAll {} (tokens f.source).dropLast
      fail (.token e) span) := by
  have ht : tokens f.source = (tokens f.source).dropLast ++ [.error (e, span)] :=
    tokensFrom_of_error_mem h
  rw [Frame.value, Frame.run]
  nth_rewrite 1 [ht]
  rw [readAll_append]
  simp only [bind_assoc, Frame.readAll, fail_bind]

section Endings

variable {s : σ} {r : Except (Error ρ ω) Machine}
  (hw : outcome (expandWords access (withoutEnvelope expression.toList)) s = (.ok source, t))
  (ht : .error (.strayCharacter, span) ∈ tokens source)
  (hr : outcome (readBefore access limits expression) s = (r, t'))

include hw ht hr

theorem outcome_value_of_stray :
    outcome (frame access limits source).value t = (.error (lastError span r), t') := by
  rw [readBefore, outcome_bind, hw] at hr
  have hr : outcome ((frame access limits source).readAll {} (tokens source).dropLast) t =
      (r, t') := hr
  have hv : (frame access limits source).value = (do
      let _ ← (frame access limits source).readAll {} (tokens source).dropLast
      fail (.token .strayCharacter) span) := value_of_error_mem ht
  rw [hv, outcome_bind, hr]
  cases r <;> rfl

/-- The first stray character that is found has the expression run as a command. -/
theorem outcome_expandWithin_of_errsAtStray (he : ErrsAtStray r) {answer : Except String String}
    {s' : σ} (hs : access.substituteCommand expression t' = (some answer, s')) :
    outcome (expandWithin access limits expression) s = (commandResult expression answer, s') := by
  have hv := outcome_value_of_stray hw ht hr
  have hc := outcome_expandWithin_of_strayCharacter hw hv ?_
  · rw [hc, hs]
    cases answer <;> rfl
  · cases r with
    | ok m => rfl
    | error e => exact he e rfl

/-- An error of another kind that is found before the stray character is the result. -/
theorem outcome_expandWithin_of_error_before {e : Error ρ ω} (hre : r = .error e)
    (hc : e.cause ≠ .token .strayCharacter) :
    outcome (expandWithin access limits expression) s = (.error e, t') := by
  subst hre
  exact outcome_expandWithin_of_error hw (outcome_value_of_stray hw ht hr) hc

end Endings

/-- Neither a command nor an exit status is asked for after this state, unless it was before. -/
def Continues (p p' : σ × List (Call ρ ω)) : Prop :=
  (∀ call ∈ p.2, call.isCommand = false ∧ call.isStatus = false) →
    ∀ call ∈ p'.2, call.isCommand = false ∧ call.isStatus = false

instance : Std.Refl (Continues (σ := σ) (ρ := ρ) (ω := ω)) := ⟨fun _ h => h⟩

instance : Trans (Continues (σ := σ) (ρ := ρ) (ω := ω)) Continues Continues :=
  ⟨fun h h' hp => h' (h hp)⟩

theorem continues_record {call : α → Call ρ ω} (x : StateM σ α) (p : σ × List (Call ρ ω))
    (hc : ∀ a, (call a).isCommand = false ∧ (call a).isStatus = false) :
    Continues p (record call x p).2 := by
  intro hp c hm
  rcases List.mem_append.mp hm with hm | hm
  · exact hp c hm
  · rw [List.mem_singleton.mp hm]
    exact hc _

theorem keepsEvaluating_recorded (access : Access σ ρ ω) :
    access.recorded.KeepsEvaluating Continues where
  get _ p := continues_record _ p fun _ => ⟨rfl, rfl⟩
  assign _ _ _ p := continues_record _ p fun _ => ⟨rfl, rfl⟩
  expandWord _ p := continues_record _ p fun _ => ⟨rfl, rfl⟩

/-- As long as an expression is read, neither a command nor an exit status is asked for. -/
theorem continues_readBefore (access : Access σ ρ ω) (limits : Limits) (expression : String)
    (s : σ) :
    ∀ call ∈ (outcome (readBefore access.recorded limits expression) (s, [])).2.2,
      call.isCommand = false ∧ call.isStatus = false := by
  have hk := keepsEvaluating_recorded access
  have hr : Maintains Continues (readBefore access.recorded limits expression) :=
    (hk.expandWords _).bind fun source => (hk.frame limits source).readAll {} _
  exact hr (s, []) nofun

theorem outcome_expandWords_recorded {body : List Char} {s : σ}
    (hw : outcome (expandWords access body) s = (.ok source, t)) :
    ∃ log, outcome (expandWords access.recorded body) (s, []) = (.ok source, t, log) := by
  have ha := accesses_beside (fun call log => log ++ [call]) access
  obtain ⟨hr, ht⟩ := simulates_besides_iff.mp (ha.expandWords body) (s, [])
  rw [← recorded_eq_beside] at hr ht
  rw [hw] at hr ht
  exact ⟨_, Prod.ext hr (Prod.ext ht rfl)⟩

/-- Where all before the stray character is read without an error, or with one at another stray
character, the whole expression is run as one command, after what that has done. An error of another
kind is the result, and no command is run. -/
structure Falls (access : Access σ ρ ω) (limits : Limits) (expression : String) (s : σ)
    (r : Except (Error ρ ω) Machine) (before : List (Call ρ ω)) : Prop where
  command : ErrsAtStray r → ∃ answer,
    (outcome (expandWithin access limits expression) s).1 = commandResult expression answer ∧
    calls access limits expression s = before ++ [.substituteCommand expression (some answer)]
  error (e : Error ρ ω) : r = .error e → e.cause ≠ .token .strayCharacter →
    (outcome (expandWithin access limits expression) s).1 = .error e ∧
    calls access limits expression s = before

theorem falls_of_stray {s : σ}
    (ha : ∀ t, (access.substituteCommand expression t).1.isSome)
    (hw : outcome (expandWords access (withoutEnvelope expression.toList)) s = (.ok source, t))
    (ht : .error (.strayCharacter, span) ∈ tokens source) :
    Falls access limits expression s
      (outcome (readBefore access.recorded limits expression) (s, [])).1
      (outcome (readBefore access.recorded limits expression) (s, [])).2.2 := by
  obtain ⟨log, hw⟩ := outcome_expandWords_recorded hw
  rcases hr : outcome (readBefore access.recorded limits expression) (s, []) with ⟨r, t', before⟩
  have hv := (outcome_recorded access limits expression s []).1
  constructor
  · intro he
    obtain ⟨answer, hs⟩ := Option.isSome_iff_exists.mp (ha t')
    have hs : access.recorded.substituteCommand expression (t', before) =
        (some answer, (access.substituteCommand expression t').2,
          before ++ [.substituteCommand expression (some answer)]) := by
      rw [← hs]
      rfl
    have ho := outcome_expandWithin_of_errsAtStray hw ht hr he hs
    refine ⟨answer, ?_, ?_⟩
    · rw [← hv, ho]
    · rw [calls, ho]
  · intro e hre hc
    have ho := outcome_expandWithin_of_error_before hw ht hr hre hc
    refine ⟨?_, ?_⟩
    · rw [← hv, ho]
    · rw [calls, ho]

theorem filter_isCommand_eq_nil {before : List (Call ρ ω)}
    (h : ∀ call ∈ before, call.isCommand = false ∧ call.isStatus = false) :
    before.filter Call.isCommand = [] :=
  List.filter_eq_nil_iff.mpr fun call hm => by simp [(h call hm).1]

/-- An expression with a stray character, in a shell that can run commands, is replaced by a command
without having had an effect of its own, exactly if no error of another kind is found before that
character, and nothing is assigned before it either. -/
theorem replaced_iff_of_stray {s : σ} (ha : ∀ t, (access.substituteCommand expression t).1.isSome)
    (hw : outcome (expandWords access (withoutEnvelope expression.toList)) s = (.ok source, t))
    (ht : .error (.strayCharacter, span) ∈ tokens source) :
    let r := outcome (readBefore access.recorded limits expression) (s, [])
    Falls access limits expression s r.1 r.2.2 ∧
      (Replaced access limits expression s ↔
        ErrsAtStray r.1 ∧ ∀ call ∈ r.2.2, call.isAssignment = false) := by
  intro r
  have hf : Falls access limits expression s r.1 r.2.2 := falls_of_stray ha hw ht
  have hcont : ∀ call ∈ r.2.2, call.isCommand = false ∧ call.isStatus = false :=
    continues_readBefore access limits expression s
  have hnil := filter_isCommand_eq_nil hcont
  refine ⟨hf, fun hrep => ?_, fun ⟨he, hassign⟩ => ?_⟩
  · have he : ErrsAtStray r.1 := by
      intro e hre
      by_contra hc
      obtain ⟨-, hcalls⟩ := hf.error e hre hc
      obtain ⟨answer, honce, -⟩ := hrep.once
      rw [hcalls, hnil] at honce
      cases honce
    obtain ⟨answer, -, hcalls⟩ := hf.command he
    refine ⟨he, fun call hm => hrep.assignment call ?_⟩
    rw [hcalls]
    exact List.mem_append_left _ hm
  · obtain ⟨answer, hresult, hcalls⟩ := hf.command he
    refine ⟨⟨answer, ?_, hresult⟩, ?_, ?_⟩
    · rw [hcalls, List.filter_append, hnil]
      rfl
    · rw [hcalls]
      exact List.forall_mem_append.mpr ⟨fun call hm => (hcont call hm).2, by simp [Call.isStatus]⟩
    · rw [hcalls]
      exact List.forall_mem_append.mpr ⟨hassign, by simp [Call.isAssignment]⟩

/-- Variables beside commands that put out `out`. -/
def Bindings.commanding : Access Bindings Empty Empty where
  get := Bindings.access.get
  assign := Bindings.access.assign
  expandWord := Bindings.access.expandWord
  substituteCommand _ := pure (some (.ok "out"))
  setExitStatus := Bindings.access.setExitStatus

/-- The command is the whole expression, with its brackets. -/
theorem question_in_brackets_replaced :
    Replaced Bindings.commanding {} "$(( 1 ? 2 ))" {} := by
  have hw : outcome (expandWords Bindings.commanding (withoutEnvelope "$(( 1 ? 2 ))".toList)) {} =
      (.ok " 1 ? 2 ".toList, {}) := rfl
  have ht : .error (.strayCharacter, ⟨3, 4⟩) ∈ tokens " 1 ? 2 ".toList := by decide +kernel
  have hok : (outcome (readBefore Bindings.commanding.recorded {} "$(( 1 ? 2 ))")
      ({}, [])).1.isOk := by decide +kernel
  refine (replaced_iff_of_stray (fun _ => rfl) hw ht).2.mpr ⟨fun e he => ?_, by decide +kernel⟩
  rw [he] at hok
  cases hok

/-- An assignment before the stray character is made, and an error there is the result. -/
theorem not_replaced_after_assignment_or_error :
    .error (.strayCharacter, ⟨7, 8⟩) ∈ tokens "x = 1, @".toList ∧
      ¬ Replaced Bindings.commanding {} "x = 1, @" {} ∧
      .error (.strayCharacter, ⟨4, 5⟩) ∈ tokens "1 2 @".toList ∧
      ¬ Replaced Bindings.commanding {} "1 2 @" {} := by
  refine ⟨by decide +kernel, fun h => ?_, by decide +kernel, fun h => ?_⟩
  · have ha : (calls Bindings.commanding {} "x = 1, @" {}).any Call.isAssignment := by
      decide +kernel
    obtain ⟨call, hm, hc⟩ := List.any_eq_true.mp ha
    rw [h.assignment call hm] at hc
    cases hc
  · have hn : ((calls Bindings.commanding {} "1 2 @" {}).filter Call.isCommand).length = 0 := by
      decide +kernel
    obtain ⟨answer, ho, -⟩ := h.once
    rw [ho] at hn
    cases hn

end ShellCore.Arith

import ShellCore.Proofs.Arith.Enclosing
import ShellCore.Proofs.Arith.Expansion
import ShellCore.Proofs.Arith.Numeral
import ShellCore.Proofs.Arith.Reading

/-! Numbers that arithmetic stores in a variable and reads again. -/

namespace ShellCore.Arith

open Decimal Text

variable {σ ρ ω : Type} {access : Access σ ρ ω} {f : Frame σ ρ ω} {s s' : σ} {name : String}
  {n : Int64} {x : List Char}

theorem isVariableName_cons (hx : IsVariableName x) :
    ∃ c r, x = c :: r ∧ isBlank c = false ∧ c ≠ '$' := by
  obtain ⟨hc, hd⟩ := hx
  cases x with
  | nil => cases hd
  | cons c r =>
    have hn := hc c List.mem_cons_self
    refine ⟨c, r, rfl, isBlank_of_isNameChar hn, ?_⟩
    rintro rfl
    cases hn

/-- A text that starts with a name has no envelope. -/
theorem withoutEnvelope_name (hx : IsVariableName x) (t : List Char) :
    withoutEnvelope (x ++ t) = x ++ t := by
  obtain ⟨c, r, rfl, hb, hd⟩ := isVariableName_cons hx
  have ht : trim (c :: (r ++ t)) = c :: trimEnd (r ++ t) := by
    rw [trim, trimStart, List.dropWhile_cons, hb, if_neg Bool.false_ne_true, trimEnd,
      List.reverse_cons, dropWhile_append_cons hb, List.reverse_append]
    rfl
  rw [List.cons_append, withoutEnvelope, ht]
  split
  · rename_i h
    injection h with h
    exact absurd h hd
  · rename_i h
    injection h with h
    exact absurd h hd
  · rfl

theorem hasCommandSubstitution_eq_false (h : '$' ∉ x) : hasCommandSubstitution x = false := by
  induction x with
  | nil => rfl
  | cons c x ih =>
    obtain ⟨hc, hx⟩ := List.ne_and_not_mem_of_not_mem_cons h
    rw [hasCommandSubstitution]
    · exact ih hx
    · rintro s rfl
      exact absurd rfl hc

theorem needsWordExpansion_name (hx : IsVariableName x) {t : List Char}
    (ht : ∀ c ∈ t, c ∈ [' ', '+', '0']) : needsWordExpansion (x ++ t) = false := by
  have hc : ∀ c ∈ x ++ t, c ∉ ['\x27', '"', '\x60', '\\', '$'] := by
    have hall : ∀ c ∈ ['\x27', '"', '\x60', '\\', '$'],
        isNameChar c = false ∧ c ∉ [' ', '+', '0'] := by simp [isNameChar]
    intro c hc hq
    obtain ⟨hn, hs⟩ := hall c hq
    rcases List.mem_append.mp hc with hc | hc
    · rw [hx.chars c hc] at hn
      cases hn
    · exact hs (ht c hc)
  rw [needsWordExpansion, hasCommandSubstitution_eq_false fun hd => hc _ hd (by decide),
    Bool.or_false, List.any_eq_false]
  intro c hm hq
  rw [List.contains_iff_mem] at hq
  exact hc c hm (List.mem_append_left ['$'] hq)

theorem Frame.run_assign {place : Span}
    (h : outcome (f.assign name n place) s = (.ok (), s')) :
    f.access.assign name (text n.toInt) place s = (.ok (), s') := by
  obtain ⟨r, t, hr, h⟩ := exists_of_run_bind h
  have hr : f.access.assign name (text n.toInt) place s = (r, t) := run_of_run_lift hr
  cases r with
  | ok =>
    cases h
    exact hr
  | error e => cases h

/-- The number that an assignment yields is what it stored last. -/
theorem Frame.exists_of_value_assignment {us : List Token} {span place : Span} {u : Tree}
    (ht : tokens f.source = us.map .ok)
    (hp : Parses f.source 0 us (.binary (.assign none) span (.reference name place) u))
    (h : outcome f.value s = (.ok (.integer n), s')) :
    ∃ t, f.access.assign name (text n.toInt) place t = (.ok (), s') := by
  obtain ⟨o, t, hr, ho⟩ := exists_of_run_bind h
  have htree : outcome (do
      let o ← (Tree.binary (.assign none) span (.reference name place) u).operand f
      pure (some o)) s = (.ok o, t) := by
    rcases f.run_agrees ht hp s with ha | ⟨_, _, hoverflow⟩
    · exact ha.symm.trans hr
    · cases hr.symm.trans hoverflow
  have hoperand : (Tree.binary (.assign none) span (.reference name place) u).operand f = (do
      let n ← f.valueOf (← u.operand f)
      f.assign name n place
      pure (.value n)) := by
    simp [Tree.operand]
  rw [hoperand] at htree
  obtain ⟨_, _, htree, ho'⟩ := exists_of_run_bind htree
  obtain ⟨_, _, -, htree⟩ := exists_of_run_bind htree
  obtain ⟨m, t₁, -, htree⟩ := exists_of_run_bind htree
  obtain ⟨_, t₂, hassign, htree⟩ := exists_of_run_bind htree
  cases htree
  cases ho'
  cases ho
  exact ⟨t₁, f.run_assign hassign⟩

/-- An expression that is assigned to a variable and yields a number has stored that number last,
before the exit status was set. -/
theorem exists_of_expand_assignment {expression : String} {ts : List Token} {t : σ}
    (hx : IsVariableName name.toList) (ht : tokens expression.toList = ts.map .ok)
    (hd : Derivable expression.toList ts)
    (hw : outcome (expandWords access (assignmentText name expression).toList) s =
      (.ok (assignmentText name expression).toList, t))
    (h : outcome (expand access (assignmentText name expression)) s = (.ok (.integer n), s')) :
    ∃ place t₁ t₂, access.assign name (text n.toInt) place t₁ = (.ok (), t₂) ∧
      (access.setExitStatus (Value.integer n).exitStatus t₂).2 = s' := by
  have he : withoutEnvelope (assignmentText name expression).toList =
      (assignmentText name expression).toList := by
    rw [toList_assignmentText]
    exact withoutEnvelope_name hx _
  rw [← he] at hw
  obtain ⟨t₂, hv, hs⟩ := exists_of_expand_integer hw h
  rw [he] at hv
  obtain ⟨us, span, place, u, hus, hp⟩ := parses_assignmentText hx ht hd
  obtain ⟨t₁, ha⟩ := Frame.exists_of_value_assignment hus hp hv
  exact ⟨place, t₁, t₂, ha, hs⟩

/-- The variable holds the number. -/
def Access.Has (access : Access σ ρ ω) (name : String) (n : Int64) (s : σ) : Prop :=
  access.get name s = (.ok (some (text n.toInt)), s)

/-- Reading the variable gives the value and leaves the state as it is. -/
def Access.Holds (access : Access σ ρ ω) (s : σ) (name value : String) : Prop :=
  access.get name s = (.ok (some value), s)

theorem Frame.outcome_get_of_holds {value : String} (h : f.access.Holds s name value)
    (span : Span) : outcome (f.get name span) s = (.ok (some value), s) := by
  have hl : outcome (f.access.get name : EvalM σ ρ ω (Except ρ (Option String))) s =
      (.ok (.ok (some value)), s) := run_lift h
  rw [get, outcome_bind, hl]
  rfl

theorem Frame.outcome_get (h : f.access.Has name n s) (span : Span) :
    outcome (f.get name span) s = (.ok (some (text n.toInt)), s) :=
  Frame.outcome_get_of_holds h span

theorem trim_text (i : Int) : trim (text i).toList = ofInt i := by
  rw [text, String.toList_ofList, trim_of_stable (stable_ofInt i)]

theorem isEmpty_ofInt (i : Int) : (ofInt i).isEmpty = false := by
  cases i with
  | ofNat n => simpa [ofInt] using ofNat_ne_nil n
  | negSucc n => rfl

theorem Frame.outcome_resolve (h : f.access.Has name n s) (hn : n ≠ Int64.minValue) (span : Span) :
    outcome (f.resolve name span) s = (.ok n, s) := by
  rw [resolve, outcome_bind, f.outcome_get h]
  dsimp only
  rw [trim_text, isEmpty_ofInt, constant?_ofInt, if_neg hn]
  rfl

/-- The least number is written as no constant, and as no expression either. -/
theorem exists_of_outcome_resolve {source : List Char} (h : access.Has name Int64.minValue s)
    (span : Span) :
    ∃ e, outcome ((frame access {} source).resolve name span) s = (.error e, s) := by
  let f : Frame σ ρ ω := ⟨access, 64, ofInt Int64.minValue.toInt, evaluateNested access 64 31⟩
  obtain ⟨place, hf⟩ := f.integer_ofInt Int64.minValue rfl (Nat.succ_ne_zero 63)
  rw [if_pos rfl] at hf
  rw [Frame.resolve, outcome_bind, Frame.outcome_get h]
  dsimp only
  rw [trim_text, isEmpty_ofInt, constant?_ofInt, if_pos rfl, if_neg Bool.false_ne_true]
  dsimp only
  have hd : (frame access {} source).descend (ofInt Int64.minValue.toInt) span =
      fun locate => ExceptT.adapt locate f.integer := rfl
  rw [hd, hf]
  exact ⟨_, rfl⟩

theorem Frame.value_name {a : Span} (ht : tokens f.source = [.ok ⟨.variable name, a⟩])
    (hd : f.stackDepth ≠ 0) : f.value = f.result (some (.variable name a)) := by
  simp [value, run, ht, readAll, read, pushOperand, hd, finish, reduce]

theorem Frame.value_sum {a b c : Span} (ht : tokens f.source =
      [.ok ⟨.variable name, a⟩, .ok ⟨.symbol (.binary (.compute .add)), b⟩, .ok ⟨.constant 0, c⟩])
    (hd : 2 ≤ f.stackDepth) :
    f.value = (do return .integer (← f.resolve name a)) := by
  have h0 : f.stackDepth ≠ 0 := by omega
  have h1 : ¬ f.stackDepth ≤ 1 := by omega
  have hadd : ∀ n : Int64, Operation.add.apply n 0 = .ok n := by
    intro n
    show checked (n.toInt + 0) = _
    rw [Int.add_zero, checked, fit_toInt]
  simp [value, run, ht, readAll, read, readSymbol, readBinary, Symbol.asBinary?, settle,
    pushOperand, pushPending, h0, h1, finish, reduce, apply, popOperand, applyBinary, valueOf,
    skipAfter, hadd, orFault, result]

/-- The texts that read a variable, in a sum and alone. -/
def textsThatRead (name : String) : List String := [name ++ " + 0", name]

theorem outcome_expandWords_of_textsThatRead (hx : IsVariableName name.toList) {text : String}
    (ht : text ∈ textsThatRead name) :
    outcome (expandWords access (withoutEnvelope text.toList)) s = (.ok text.toList, s) := by
  have hname : ∀ t : List Char, (∀ c ∈ t, c ∈ [' ', '+', '0']) →
      outcome (expandWords access (withoutEnvelope (name.toList ++ t))) s =
        (.ok (name.toList ++ t), s) := by
    intro t ht
    rw [withoutEnvelope_name hx, expandWords, needsWordExpansion_name hx ht,
      if_neg Bool.false_ne_true]
    rfl
  simp only [textsThatRead, List.mem_cons, List.not_mem_nil, or_false] at ht
  rcases ht with rfl | rfl
  · rw [String.toList_append]
    exact hname _ (by simp)
  · simpa using hname [] (by simp)

theorem value_of_textsThatRead (access : Access σ ρ ω) (hx : IsVariableName name.toList)
    {text : String} (ht : text ∈ textsThatRead name) :
    ∃ a, (frame access {} text.toList).value = (do
        return .integer (← (frame access {} text.toList).resolve name a)) ∨
      (frame access {} text.toList).value =
        (frame access {} text.toList).result (some (.variable name a)) := by
  simp only [textsThatRead, List.mem_cons, List.not_mem_nil, or_false] at ht
  rcases ht with rfl | rfl
  · have htokens := tokens_name hx (t := " + 0".toList) (by simp; rfl)
    rw [String.ofList_toList, ← String.toList_append] at htokens
    exact ⟨_, .inl (Frame.value_sum htokens (Nat.le_add_left 2 62))⟩
  · have htokens := tokens_name hx (t := []) (by simp)
    rw [String.ofList_toList, List.append_nil] at htokens
    exact ⟨_, .inr (Frame.value_name htokens (Nat.succ_ne_zero 63))⟩

/-- A number in a variable is read as what it is, unless it is the least one. -/
theorem expand_reading_iff (hx : IsVariableName name.toList) (h : access.Has name n s)
    {text : String} (ht : text ∈ textsThatRead name) :
    (outcome (expand access text) s).1 = .ok (.integer n) ↔ n ≠ Int64.minValue := by
  have hw : outcome (expandWords access (withoutEnvelope text.toList)) s = (.ok text.toList, s) :=
    outcome_expandWords_of_textsThatRead hx ht
  obtain ⟨a, hv⟩ := value_of_textsThatRead access hx ht
  constructor
  · rintro hr rfl
    obtain ⟨t, hvalue, -⟩ := exists_of_expand_integer hw (Prod.ext hr rfl)
    rcases hv with hv | hv
    · obtain ⟨e, he⟩ := exists_of_outcome_resolve h a
      rw [hv, outcome_bind, he] at hvalue
      cases hvalue
    · rw [hv, Frame.result, outcome_bind, Frame.outcome_get h] at hvalue
      dsimp only at hvalue
      rw [Option.getD_some, trim_text, isEmpty_ofInt, constant?_ofInt, if_pos rfl] at hvalue
      cases hvalue
  · intro hn
    suffices hvalue : outcome (frame access {} text.toList).value s = (.ok (.integer n), s) from
      expand_of_value hw hvalue
    have hresolve := Frame.outcome_resolve (f := frame access {} text.toList) h hn a
    rcases hv with hv | hv
    · rw [hv, outcome_bind, hresolve]
      rfl
    · rw [hv, Frame.result, outcome_bind, Frame.outcome_get h]
      dsimp only
      rw [Option.getD_some, trim_text, isEmpty_ofInt, constant?_ofInt, if_neg hn]
      simp only [Option.isSome_some, Bool.or_true, if_true]
      rw [outcome_bind, hresolve]
      rfl

/-- Arithmetic over bindings reads back every number that it has stored but the least one. -/
theorem Bindings.expand_reading_iff {bindings bindings' : Bindings} {expression : String}
    {ts : List Token} (hx : IsVariableName name.toList)
    (ht : tokens expression.toList = ts.map .ok) (hd : Derivable expression.toList ts)
    (h : outcome (expand Bindings.access (assignmentText name expression)) bindings =
      (.ok (.integer n), bindings')) {text : String} (hr : text ∈ textsThatRead name) :
    (outcome (expand Bindings.access text) bindings').1 = .ok (.integer n) ↔
      n ≠ Int64.minValue := by
  have hw : outcome (expandWords Bindings.access (assignmentText name expression).toList) bindings =
      (.ok (assignmentText name expression).toList, bindings) := by
    unfold expandWords
    split <;> rfl
  obtain ⟨place, t₁, t₂, ha, rfl⟩ := exists_of_expand_assignment hx ht hd hw h
  have hget : Bindings.access.Has name n t₂ := by
    cases ha
    show (Except.ok ((t₁.insert name (Decimal.text n.toInt)).get? name), _) = _
    rw [Dictionary.get?_insert, if_pos rfl]
  exact Arith.expand_reading_iff hx hget hr

end ShellCore.Arith

import Mathlib.Data.List.Chain
import ShellCore.Proofs.Arith.Dereference
import ShellCore.Proofs.Arith.ReadBack
import ShellCore.Proofs.Arith.Termination

/-! Variables that name other variables. -/

namespace ShellCore.Arith

open Decimal Text

variable {σ ρ ω : Type} {access : Access σ ρ ω} {f : Frame σ ρ ω} {limits : Limits} {s t t' : σ}
  {name next : String} {rest : List String} {n : Int64} {x : List Char} {levels : Nat}

theorem trim_name (hx : IsVariableName x) : trim x = x := by
  have hdrop : ∀ {x : List Char}, (∀ c ∈ x, isNameChar c) → x.dropWhile isBlank = x := by
    intro x hx
    cases x with
    | nil => rfl
    | cons c x => simp [isBlank_of_isNameChar (hx c List.mem_cons_self)]
  have hr : ∀ c ∈ x.reverse, isNameChar c := fun c hc => hx.chars c (List.mem_reverse.mp hc)
  rw [trim, trimStart, trimEnd, hdrop hx.chars, hdrop hr, List.reverse_reverse]

theorem isEmpty_name (hx : IsVariableName x) : x.isEmpty = false := by
  obtain ⟨c, r, rfl, -⟩ := isVariableName_cons hx
  rfl

/-- A constant starts with a digit or a sign. -/
theorem constant?_name (hx : IsVariableName x) : constant? x = none := by
  have hhead := hx.head
  rw [Option.eq_none_iff_forall_ne_some]
  intro v h
  unfold constant? at h
  split at h
  · cases hx.chars '-' List.mem_cons_self
  · cases hx.chars '+' List.mem_cons_self
  · obtain ⟨d, r, hd, rfl⟩ := exists_of_unsigned? h
    simp [isDigit_digit d hd] at hhead

namespace Frame

/-- An expression nested one level deeper, with so many levels left below it. -/
def nested (f : Frame σ ρ ω) (levels : Nat) (source : List Char) : Frame σ ρ ω :=
  ⟨f.access, f.stackDepth, source, evaluateNested f.access f.stackDepth levels⟩

/-- A text that is a name is evaluated as the variable is, one level deeper. -/
theorem integer_name {text : String} (hs : f.source = text.toList)
    (hx : IsVariableName text.toList) (hd : f.stackDepth ≠ 0) :
    f.integer = f.resolve text ⟨0, byteLength text.toList⟩ := by
  have ht : tokens f.source = [.ok ⟨.variable text, ⟨0, byteLength text.toList⟩⟩] := by
    have ht := tokens_name hx (t := []) (by simp)
    rw [List.append_nil, String.ofList_toList] at ht
    rw [hs, ht]
    rfl
  simp [integer, run, ht, readAll, read, pushOperand, hd, finish, reduce, valueOf]

theorem outcome_resolve_of_holds (h : f.access.Holds s name next) (hx : IsVariableName next.toList)
    (span : Span) :
    outcome (f.resolve name span) s =
      outcome (f.descend next.toList span (blameVariable next.toList span)) s := by
  rw [resolve, outcome_bind, outcome_get_of_holds h]
  dsimp only
  rw [trim_name hx, isEmpty_name hx, constant?_name hx]
  rfl

/-- A variable that names another one stands for what that one stands for, one level deeper. -/
theorem outcome_resolve_succ (hi : f.inner = evaluateNested f.access f.stackDepth (levels + 1))
    (hd : f.stackDepth ≠ 0) (h : f.access.Holds s name next) (hx : IsVariableName next.toList)
    {r : Except (Error ρ ω) Int64}
    (hr : outcome ((f.nested levels next.toList).resolve next ⟨0, byteLength next.toList⟩) s =
      (r, s)) (span : Span) :
    outcome (f.resolve name span) s = (r.mapError (blameVariable next.toList span), s) := by
  have hinner : f.inner = some fun source => (f.nested levels source).integer := hi
  rw [outcome_resolve_of_holds h hx, descend, hinner]
  dsimp only
  rw [outcome_adapt, integer_name (f := f.nested levels next.toList) rfl hx hd, hr]

theorem outcome_resolve_zero (hi : f.inner = none) (h : f.access.Holds s name next)
    (hx : IsVariableName next.toList) (span : Span) :
    outcome (f.resolve name span) s = (.error ⟨.nestingTooDeep, span⟩, s) := by
  rw [outcome_resolve_of_holds h hx, descend, hi]
  rfl

/-- Each name in a chain takes one level. -/
theorem outcome_resolve_chain (hi : f.inner = evaluateNested f.access f.stackDepth levels)
    (hd : f.stackDepth ≠ 0) (hx : ∀ x ∈ rest, IsVariableName x.toList)
    (h : (name :: (rest ++ [text n.toInt])).IsChain (f.access.Holds s))
    (hn : n ≠ Int64.minValue) (span : Span) :
    outcome (f.resolve name span) s =
      (if rest.length ≤ levels then .ok n else .error ⟨.nestingTooDeep, span⟩, s) := by
  induction rest generalizing f name levels span with
  | nil =>
    rw [List.nil_append, List.isChain_cons_cons] at h
    rw [outcome_resolve (show f.access.Has name n s from h.1) hn]
    rfl
  | cons next rest ih =>
    rw [List.cons_append, List.isChain_cons_cons] at h
    have hnext := hx next List.mem_cons_self
    cases levels with
    | zero => exact outcome_resolve_zero hi h.1 hnext span
    | succ levels =>
      have hr := ih (f := f.nested levels next.toList) rfl hd
        (fun x hx' => hx x (List.mem_cons_of_mem _ hx')) h.2 ⟨0, byteLength next.toList⟩
      rw [outcome_resolve_succ hi hd h.1 hnext hr]
      simp only [List.length_cons, Nat.add_le_add_iff_right]
      split <;> rfl

/-- Where each of some names is held by a variable with one of these names, no level is enough. -/
theorem outcome_resolve_cycle {names : List String}
    (h : ∀ name ∈ names, ∃ next ∈ names, f.access.Holds s name next)
    (hx : ∀ x ∈ names, IsVariableName x.toList)
    (hi : f.inner = evaluateNested f.access f.stackDepth levels) (hd : f.stackDepth ≠ 0)
    (hname : name ∈ names) (span : Span) :
    outcome (f.resolve name span) s = (.error ⟨.nestingTooDeep, span⟩, s) := by
  obtain ⟨next, hnext, hholds⟩ := h name hname
  induction levels generalizing f name next span with
  | zero => exact outcome_resolve_zero hi hholds (hx next hnext) span
  | succ levels ih =>
    obtain ⟨next', hnext', hholds'⟩ := h next hnext
    have hr := ih (f := f.nested levels next.toList) h rfl hd hnext
      ⟨0, byteLength next.toList⟩ next' hnext' hholds'
    rw [outcome_resolve_succ hi hd hholds (hx next hnext) hr]
    rfl

end Frame

/-- Each name in a closed chain is held by a variable of the chain. -/
theorem exists_holds_of_isChain {last : String}
    (h : (name :: (rest ++ [last])).IsChain (access.Holds s)) {x : String}
    (hx : x ∈ name :: rest) : ∃ next ∈ rest ++ [last], access.Holds s x next := by
  induction rest generalizing name with
  | nil =>
    obtain rfl := List.mem_singleton.mp hx
    rw [List.nil_append, List.isChain_cons_cons] at h
    exact ⟨last, List.mem_cons_self, h.1⟩
  | cons y rest ih =>
    rw [List.cons_append, List.isChain_cons_cons] at h
    rcases List.mem_cons.mp hx with rfl | hx
    · exact ⟨y, List.mem_cons_self, h.1⟩
    · obtain ⟨next, hnext, hholds⟩ := ih h.2 hx
      exact ⟨next, List.mem_cons_of_mem y hnext, hholds⟩

theorem outcome_value_sum (hx : IsVariableName name.toList) (hd : 2 ≤ limits.stackDepth)
    {source : List Char} (hs : source = name.toList ++ ['+', '0'])
    {r : Except (Error ρ ω) Int64}
    (h : outcome ((frame access limits source).resolve name ⟨0, byteLength name.toList⟩) s =
      (r, s)) :
    outcome (frame access limits source).value s = (r.map Value.integer, s) := by
  have ht := tokens_name hx (t := ['+', '0']) (by simp; rfl)
  rw [String.ofList_toList, ← hs] at ht
  rw [Frame.value_sum (f := frame access limits source) ht hd, outcome_bind, h]
  cases r <;> rfl

theorem outcome_expandWords_sum (hx : IsVariableName name.toList) :
    outcome (expandWords access (withoutEnvelope (name ++ "+0").toList)) s =
      (.ok (name.toList ++ ['+', '0']), s) := by
  rw [String.toList_append, withoutEnvelope_name hx, expandWords,
    needsWordExpansion_name hx (by simp), if_neg Bool.false_ne_true]
  rfl

/-- A sum of a variable and nothing. -/
theorem outcome_expandWithin_sum (hx : IsVariableName name.toList) (hd : 2 ≤ limits.stackDepth)
    (h : ∀ source, outcome
      ((frame access limits source).resolve name ⟨0, byteLength name.toList⟩) s = (.ok n, s)) :
    outcome (expandWithin access limits (name ++ "+0")) s =
      (.ok (.integer n), (access.setExitStatus (Value.integer n).exitStatus s).2) :=
  outcome_expandWithin_of_ok (outcome_expandWords_sum hx) (outcome_value_sum hx hd rfl (h _))

theorem outcome_expandWithin_sum_tooDeep (hx : IsVariableName name.toList)
    (hd : 2 ≤ limits.stackDepth)
    (h : ∀ source, outcome
      ((frame access limits source).resolve name ⟨0, byteLength name.toList⟩) s =
        (.error ⟨.nestingTooDeep, ⟨0, byteLength name.toList⟩⟩, s)) :
    outcome (expandWithin access limits (name ++ "+0")) s =
      (.error ⟨.nestingTooDeep, ⟨0, byteLength name.toList⟩⟩, s) :=
  outcome_expandWithin_of_error (outcome_expandWords_sum hx) (outcome_value_sum hx hd rfl (h _))
    nofun

/-- A variable that leads over names to a number has that number if there is a level for each name
but the first, and one that leads back to itself has none, as nesting is too deep. For all texts and
surroundings evaluation comes to an end: it makes at most two moves for each token before the last
one, and expressions that are nested deeper than the limit are not evaluated at all. -/
theorem chains_resolve_within_limits (access : Access σ ρ ω) (limits : Limits) :
    (2 ≤ limits.stackDepth → ∀ (s : σ) (name : String) (rest : List String),
      (∀ x ∈ name :: rest, IsVariableName x.toList) →
      (∀ n : Int64, n ≠ Int64.minValue →
        (name :: (rest ++ [text n.toInt])).IsChain (access.Holds s) →
        outcome (expandWithin access limits (name ++ "+0")) s =
          if rest.length ≤ limits.nestingDepth then
            (.ok (.integer n), (access.setExitStatus (Value.integer n).exitStatus s).2)
          else (.error ⟨.nestingTooDeep, ⟨0, byteLength name.toList⟩⟩, s)) ∧
      ((name :: (rest ++ [name])).IsChain (access.Holds s) →
        outcome (expandWithin access limits (name ++ "+0")) s =
          (.error ⟨.nestingTooDeep, ⟨0, byteLength name.toList⟩⟩, s))) ∧
    (∀ (f : Frame σ ρ ω) (n : Nat) (p : Nat → Point) (s : Nat → σ), f.Begins n p s →
      n ≤ 2 * (tokens f.source).length) ∧
    (∀ (f : Frame σ ρ ω) (s : σ) r s', outcome f.run s = (r, s') →
      ∃ p t, f.Passes s p t ∧ outcome (f.move p) t = (r.map .inr, s')) ∧
    (∃ evaluate, IsRecursive access limits evaluate) ∧
    ∀ evaluate, IsRecursive access limits evaluate →
      ∀ source, frame access limits source = context access limits evaluate 0 source := by
  refine ⟨fun hd s name rest hx => ?_, fun f n p s h => h.le_tokens,
    fun f s r s' h => f.exists_last_move h, exists_isRecursive access limits,
    fun evaluate h => frame_eq_context h⟩
  have hd' : limits.stackDepth ≠ 0 := by omega
  obtain ⟨hname, hrest⟩ := List.forall_mem_cons.mp hx
  refine ⟨fun n hn hchain => ?_, fun hchain => ?_⟩
  · have hresolve : ∀ source, outcome
        ((frame access limits source).resolve name ⟨0, byteLength name.toList⟩) s = _ :=
      fun source => Frame.outcome_resolve_chain rfl hd' hrest hchain hn _
    split
    · next hl =>
      simp only [if_pos hl] at hresolve
      exact outcome_expandWithin_sum hname hd hresolve
    · next hl =>
      simp only [if_neg hl] at hresolve
      exact outcome_expandWithin_sum_tooDeep hname hd hresolve
  · have hclosed : ∀ x ∈ name :: rest, ∃ next ∈ name :: rest, access.Holds s x next := by
      intro x hx
      obtain ⟨next, hnext, hholds⟩ := exists_holds_of_isChain hchain hx
      exact ⟨next, by simpa [or_comm] using hnext, hholds⟩
    exact outcome_expandWithin_sum_tooDeep hname hd fun source =>
      Frame.outcome_resolve_cycle hclosed hx rfl hd' List.mem_cons_self _

/-- `x` leads to 7 over `y`, and `a` to itself over `b`. -/
theorem chain_and_cycle_resolve :
    let vars : Bindings := .ofList [("x", "y"), ("y", "7"), ("a", "b"), ("b", "a")]
    let r := outcome (expandWithin Bindings.access ⟨2, 1⟩ "x+0") vars
    let r' := outcome (expandWithin Bindings.access ⟨2, 0⟩ "x+0") vars
    let c := outcome (expandWithin Bindings.access ⟨2, 9⟩ "a+0") vars
    r.1 = .ok (.integer 7) ∧ r'.1 = .error ⟨.nestingTooDeep, ⟨0, 1⟩⟩ ∧
      c.1 = .error ⟨.nestingTooDeep, ⟨0, 1⟩⟩ := by
  intro vars r r' c
  have hxy : ∀ x ∈ ["x", "y"], IsVariableName x.toList := by
    simp only [List.forall_mem_cons, List.not_mem_nil, false_imp_iff, implies_true, and_true]
    exact ⟨⟨List.all_eq_true.mp rfl, rfl⟩, ⟨List.all_eq_true.mp rfl, rfl⟩⟩
  have hab : ∀ x ∈ ["a", "b"], IsVariableName x.toList := by
    simp only [List.forall_mem_cons, List.not_mem_nil, false_imp_iff, implies_true, and_true]
    exact ⟨⟨List.all_eq_true.mp rfl, rfl⟩, ⟨List.all_eq_true.mp rfl, rfl⟩⟩
  have hseven : text (7 : Int64).toInt = "7" := by decide +kernel
  have hchain : ["x", "y", text (7 : Int64).toInt].IsChain (Bindings.access.Holds vars) := by
    rw [hseven]
    exact .cons_cons rfl (.cons_cons rfl (.singleton _))
  have hcycle : ["a", "b", "a"].IsChain (Bindings.access.Holds vars) :=
    .cons_cons rfl (.cons_cons rfl (.singleton _))
  have hr := ((chains_resolve_within_limits Bindings.access ⟨2, 1⟩).1 (by decide) vars "x" ["y"]
    hxy).1 7 (by decide) hchain
  have hr' := ((chains_resolve_within_limits Bindings.access ⟨2, 0⟩).1 (by decide) vars "x" ["y"]
    hxy).1 7 (by decide) hchain
  have hc := ((chains_resolve_within_limits Bindings.access ⟨2, 9⟩).1 (by decide) vars "a" ["b"]
    hab).2 hcycle
  exact ⟨congrArg Prod.fst hr, congrArg Prod.fst hr', congrArg Prod.fst hc⟩

end ShellCore.Arith

import Mathlib.Data.List.Forall2
import ShellCore.Proofs.Arith.Comparison

/-! Evaluations in surroundings that correspond to each other end alike. -/

namespace ShellCore.Arith

open Text

variable {σ σ' ρ ρ' ω ω' : Type}

namespace Comparison

variable (V : Comparison σ σ' ρ ρ' ω ω')

/-- Each use of the one access is answered as the same use of the other one. -/
structure Accesses (a : Access σ ρ ω) (a' : Access σ' ρ' ω') : Prop where
  get (name : String) (s : σ) (s' : σ') (hs : V.states s s') :
    (a'.get name s').1 = (a.get name s).1.mapError V.unreadable ∧
      V.states (a.get name s).2 (a'.get name s').2
  assign (name value : String) {span span' : Span} (h : V.spans span span') (s : σ) (s' : σ')
    (hs : V.states s s') :
    (a'.assign name value span' s').1 = (a.assign name value span s).1.mapError V.unassignable ∧
      V.states (a.assign name value span s).2 (a'.assign name value span' s').2
  expandWord (text : String) (s : σ) (s' : σ') (hs : V.states s s') :
    (a'.expandWord text s').1 = (a.expandWord text s).1 ∧
      V.states (a.expandWord text s).2 (a'.expandWord text s').2
  substituteCommand (text : String) (s : σ) (s' : σ') (hs : V.states s s') :
    (a'.substituteCommand text s').1 = (a.substituteCommand text s).1 ∧
      V.states (a.substituteCommand text s).2 (a'.substituteCommand text s').2
  setExitStatus (status : ExitStatus) (s : σ) (s' : σ') (hs : V.states s s') :
    V.states (a.setExitStatus status s).2 (a'.setExitStatus status s').2

/-- The second bound is the first one, or a larger one if it is excused to exceed the first. -/
def Bounds (c : Cause ρ ω) (n n' : Nat) : Prop := n = n' ∨ (V.excused c ∧ n ≤ n')

inductive Inner : Option (List Char → EvalM σ ρ ω Int64) →
    Option (List Char → EvalM σ' ρ' ω' Int64) → Prop
  | none : Inner none none
  | some {x : List Char → EvalM σ ρ ω Int64} {x' : List Char → EvalM σ' ρ' ω' Int64}
    (h : ∀ body, V.Simulates Eq (x body) (x' body)) : Inner (some x) (some x')
  | excused {inner' : Option (List Char → EvalM σ' ρ' ω' Int64)} (h : V.excused .nestingTooDeep) :
    Inner .none inner'

structure Frames (f : Frame σ ρ ω) (f' : Frame σ' ρ' ω') : Prop where
  access : V.Accesses f.access f'.access
  depth : V.Bounds .stackOverflow f.stackDepth f'.stackDepth
  inner : V.Inner f.inner f'.inner
  whole : V.spans ⟨0, byteLength f.source⟩ ⟨0, byteLength f'.source⟩

inductive Operands : Operand → Operand → Prop
  | value (n : Int64) : Operands (.value n) (.value n)
  | variable (name : String) {span span' : Span} (h : V.spans span span') :
    Operands (.variable name span) (.variable name span')

inductive Items : Pending → Pending → Prop
  | paren {span span' : Span} (h : V.spans span span') (skip : Bool) :
    Items (.paren span skip) (.paren span' skip)
  | operator (op : Operator) {span span' : Span} (h : V.spans span span') (skip : Bool) :
    Items (.operator op span skip) (.operator op span' skip)

structure Machines (m m' : Machine) : Prop where
  pending : List.Forall₂ V.Items m.pending m'.pending
  operands : List.Forall₂ V.Operands m.operands m'.operands
  skip : m.skip = m'.skip
  expectsOperand : m.expectsOperand = m'.expectsOperand

/-- A result beside a machine. -/
structure Pairs {α α' : Type} (P : α → α' → Prop) (r : α × Machine) (r' : α' × Machine) : Prop where
  result : P r.1 r'.1
  machine : V.Machines r.2 r'.2

/-- The tokens say the same, and a step changes the operand before it in both texts or in none. -/
structure Tokens (source source' : List Char) (t t' : Token) : Prop where
  value : t.value = t'.value
  span : V.spans t.span t'.span
  step (s : Step) (h : t.value = .symbol (.step s)) :
    endsWithName (takeBytes t.span.start source) = endsWithName (takeBytes t'.span.start source')

inductive Readings (source source' : List Char) : Reading → Reading → Prop
  | token {t t' : Token} (h : V.Tokens source source' t t') :
    Readings source source' (.ok t) (.ok t')
  | error (e : TokenError) {span span' : Span} (h : V.spans span span') :
    Readings source source' (.error (e, span)) (.error (e, span'))

end Comparison

namespace Comparison.Frames

open Simulates

variable {V : Comparison σ σ' ρ ρ' ω ω'} {f : Frame σ ρ ω} {f' : Frame σ' ρ' ω'}
  {span span' : Span} {o o' p p' : Operand} {m m' : Machine}

theorem popOperand (hm : V.Machines m m') (hl : V.spans span span') :
    V.Simulates (V.Pairs V.Operands) (Frame.popOperand m span) (Frame.popOperand m' span') := by
  obtain ⟨pending, operands, skip, e⟩ := m
  obtain ⟨pending', operands', skip', e'⟩ := m'
  obtain ⟨hp, ho, hs, he⟩ := hm
  cases ho with
  | nil => exact .fail rfl hl
  | cons ho hos => exact .pure ⟨ho, hp, hos, hs, he⟩

variable (h : V.Frames f f')

include h

/-- Where the first stack has room for an item, so has the second one. -/
theorem unlessFull {α α' : Type} {P : α → α' → Prop} {x : EvalM σ ρ ω α} {x' : EvalM σ' ρ' ω' α'}
    (hl : V.spans span span') (hx : V.Simulates P x x') (size : Nat) :
    V.Simulates P (if f.stackDepth ≤ size then fail .stackOverflow span else x)
      (if f'.stackDepth ≤ size then fail .stackOverflow span' else x') := by
  rcases h.depth with hd | ⟨he, hd⟩
  · rw [← hd]
    split
    · exact .fail rfl hl
    · exact hx
  · split
    · exact .excused he span _
    · rw [if_neg (by omega)]
      exact hx

theorem pushOperand (hm : V.Machines m m') (ho : V.Operands o o') (hl : V.spans span span') :
    V.Simulates V.Machines (f.pushOperand m o span) (f'.pushOperand m' o' span') := by
  unfold Frame.pushOperand
  rw [← hm.expectsOperand, ← hm.operands.length_eq]
  split
  · exact .fail rfl hl
  · exact h.unlessFull hl (.pure ⟨hm.pending, .cons ho hm.operands, hm.skip, rfl⟩) _

theorem pushPending {item item' : Pending} (hm : V.Machines m m') (hi : V.Items item item') :
    V.Simulates V.Machines (f.pushPending m item) (f'.pushPending m' item') := by
  have hl : V.spans item.span item'.span := by
    cases hi with
    | paren hl => exact hl
    | operator op hl => exact hl
  unfold Frame.pushPending
  rw [← hm.pending.length_eq]
  exact h.unlessFull hl (.pure ⟨.cons hi hm.pending, hm.operands, hm.skip, rfl⟩) _

theorem get (name : String) (hl : V.spans span span') :
    V.Simulates Eq (f.get name span) (f'.get name span') := by
  refine .bind (.lift (P := fun r r' => r' = r.mapError V.unreadable) (h.access.get name)) ?_
  rintro (e | value) _ rfl
  · exact .fail rfl hl
  · exact .pure rfl

theorem assign (name : String) (n : Int64) (hl : V.spans span span') :
    V.Simulates Eq (f.assign name n span) (f'.assign name n span') := by
  refine .bind (.lift (P := fun r r' => r' = r.mapError V.unassignable)
    (h.access.assign name _ hl)) ?_
  rintro (e | u) _ rfl
  · exact .fail rfl hl
  · exact .pure rfl

theorem descend (body : List Char) (hl : V.spans span span')
    {locate : Error ρ ω → Error ρ ω} {locate' : Error ρ' ω' → Error ρ' ω'}
    (hlocate : V.Locates locate locate') :
    V.Simulates Eq (f.descend body span locate) (f'.descend body span' locate') := by
  have hi := h.inner
  unfold Frame.descend
  generalize f.inner = inner at hi
  generalize f'.inner = inner' at hi
  cases hi with
  | none => exact .fail rfl hl
  | some hs => exact (hs body).adapt hlocate
  | excused hx => exact .excused hx span _

theorem resolve (name : String) (hl : V.spans span span') :
    V.Simulates Eq (f.resolve name span) (f'.resolve name span') := by
  refine .bind (h.get name hl) ?_
  rintro (- | value) _ rfl
  · exact .pure rfl
  · dsimp only
    split
    · exact .pure rfl
    · split
      · exact .pure rfl
      · exact h.descend _ hl (locates_blameVariable _ hl)

theorem valueOf (ho : V.Operands o o') : V.Simulates Eq (f.valueOf o) (f'.valueOf o') := by
  cases ho with
  | value n => exact .pure rfl
  | «variable» name hl => exact h.resolve name hl

theorem applyStep (s : Step) (ho : V.Operands o o') (hl : V.spans span span') :
    V.Simulates Eq (f.applyStep s o span) (f'.applyStep s o' span') := by
  cases ho with
  | value n => exact .fail rfl hl
  | «variable» name hp =>
    refine .bind (h.resolve name hp) ?_
    rintro old _ rfl
    refine .bind (.orFault hl _) ?_
    rintro new _ rfl
    refine .bind (h.assign name new hp) ?_
    rintro _ _ -
    exact .pure rfl

theorem applyUnary (op : UnaryOp) (ho : V.Operands o o') (hl : V.spans span span') :
    V.Simulates Eq (f.applyUnary op o span) (f'.applyUnary op o' span') := by
  have hv := h.valueOf ho
  cases op with
  | plus => exact hv
  | negate =>
    refine .bind hv ?_
    rintro n _ rfl
    exact .orFault hl _
  | logicalNot =>
    refine .bind hv ?_
    rintro n _ rfl
    exact .pure rfl
  | complement =>
    refine .bind hv ?_
    rintro n _ rfl
    exact .pure rfl
  | step s =>
    refine .bind (h.applyStep s ho hl) ?_
    rintro r _ rfl
    exact .pure rfl

theorem applyBinary (op : BinaryOp) (ho : V.Operands o o') (hp : V.Operands p p')
    (hl : V.spans span span') :
    V.Simulates Eq (f.applyBinary op o p span) (f'.applyBinary op o' p' span') := by
  have hv := h.valueOf ho
  have hw := h.valueOf hp
  cases op with
  | comma => exact hw
  | logicalAnd =>
    refine .bind hv ?_
    rintro a _ rfl
    split
    · exact .pure rfl
    · refine .bind hw ?_
      rintro b _ rfl
      exact .pure rfl
  | logicalOr =>
    refine .bind hv ?_
    rintro a _ rfl
    split
    · refine .bind hw ?_
      rintro b _ rfl
      exact .pure rfl
    · exact .pure rfl
  | assign compound =>
    cases ho with
    | value n => exact .fail rfl hl
    | @«variable» name place place' hplace =>
      refine .bind hw ?_
      rintro n _ rfl
      have hstore : ∀ n, V.Simulates Eq (do f.assign name n place; pure n)
          (do f'.assign name n place'; pure n) := by
        intro n
        refine .bind (h.assign name n hplace) ?_
        rintro _ _ -
        exact .pure rfl
      cases compound with
      | none => exact hstore n
      | some op =>
        refine .bind (h.resolve name hplace) ?_
        rintro old _ rfl
        refine .bind (.orFault hl _) ?_
        rintro n _ rfl
        exact hstore n
  | compute op =>
    refine .bind hv ?_
    rintro a _ rfl
    refine .bind hw ?_
    rintro b _ rfl
    exact .orFault hl _

theorem apply (op : Operator) (hl : V.spans span span') (skip : Bool) (hm : V.Machines m m') :
    V.Simulates V.Machines (f.apply op span skip m) (f'.apply op span' skip m') := by
  have hpush : ∀ n {m m' : Machine}, V.Machines m m' → V.Machines
      { m with operands := .value n :: m.operands, skip := Frame.skipAfter op skip m }
      { m' with operands := .value n :: m'.operands, skip := Frame.skipAfter op skip m' } := by
    intro n m m' hm
    refine ⟨hm.pending, .cons (.value n) hm.operands, ?_, hm.expectsOperand⟩
    dsimp only [Frame.skipAfter]
    split
    · rfl
    · rfl
    · exact hm.skip
  cases op with
  | unary op =>
    refine .bind (popOperand hm hl) ?_
    rintro ⟨o, m⟩ ⟨o', m'⟩ ⟨ho, hm⟩
    cases skip with
    | true => exact .pure (hpush 0 hm)
    | false =>
      refine .bind (h.applyUnary op ho hl) ?_
      rintro n _ rfl
      exact .pure (hpush n hm)
  | binary op =>
    refine .bind (popOperand hm hl) ?_
    rintro ⟨p, m⟩ ⟨p', m'⟩ ⟨hp, hm⟩
    refine .bind (popOperand hm hl) ?_
    rintro ⟨o, m⟩ ⟨o', m'⟩ ⟨ho, hm⟩
    cases skip with
    | true => exact .pure (hpush 0 hm)
    | false =>
      refine .bind (h.applyBinary op ho hp hl) ?_
      rintro n _ rfl
      exact .pure (hpush n hm)

theorem reduce (ready : Operator → Bool) (hm : V.Machines m m') {pending pending' : List Pending}
    (hp : List.Forall₂ V.Items pending pending') :
    V.Simulates V.Machines (f.reduce ready m pending) (f'.reduce ready m' pending') := by
  induction hp generalizing m m' with
  | nil => exact .pure ⟨.nil, hm.operands, hm.skip, hm.expectsOperand⟩
  | cons hi hp ih =>
    cases hi with
    | paren hl skip =>
      exact .pure ⟨.cons (.paren hl skip) hp, hm.operands, hm.skip, hm.expectsOperand⟩
    | operator op hl skip =>
      unfold Frame.reduce
      split
      · exact .bind (h.apply op hl skip hm) fun _ _ hm => ih hm
      · exact .pure ⟨.cons (.operator op hl skip) hp, hm.operands, hm.skip, hm.expectsOperand⟩

theorem resolveTop (hm : V.Machines m m') (hl : V.spans span span') :
    V.Simulates (V.Pairs Eq) (f.resolveTop m span) (f'.resolveTop m' span') := by
  refine .bind (popOperand hm hl) ?_
  rintro ⟨o, m⟩ ⟨o', m'⟩ ⟨ho, hm⟩
  have hpush : ∀ n, V.Pairs Eq (n, { m with operands := .value n :: m.operands })
      (n, { m' with operands := .value n :: m'.operands }) := fun n =>
    ⟨rfl, hm.pending, .cons (.value n) hm.operands, hm.skip, hm.expectsOperand⟩
  dsimp only
  by_cases hskip : m.skip
  · rw [if_pos hskip, if_pos (hm.skip ▸ hskip)]
    exact .pure (hpush 0)
  · rw [if_neg hskip, if_neg (hm.skip ▸ hskip)]
    refine .bind (h.valueOf ho) ?_
    rintro n _ rfl
    exact .pure (hpush n)

theorem settle (op : BinaryOp) (hm : V.Machines m m') (hl : V.spans span span') :
    V.Simulates (V.Pairs Eq) (f.settle op m span) (f'.settle op m' span') := by
  cases op with
  | logicalAnd | logicalOr =>
    refine .bind (h.resolveTop hm hl) ?_
    rintro ⟨n, m⟩ ⟨_, m'⟩ ⟨rfl, hm⟩
    exact .pure ⟨rfl, hm⟩
  | comma | assign _ | compute _ => exact .pure ⟨rfl, hm⟩

theorem closeParen (hm : V.Machines m m') (hl : V.spans span span') :
    V.Simulates V.Machines (f.closeParen m span) (f'.closeParen m' span') := by
  unfold Frame.closeParen
  rw [← hm.expectsOperand]
  split
  · exact .fail rfl hl
  · refine .bind (h.reduce _ hm hm.pending) ?_
    rintro ⟨pending, operands, skip, e⟩ ⟨pending', operands', skip', e'⟩ ⟨hp, ho, hs, he⟩
    cases hp with
    | nil => exact .fail rfl hl
    | cons hi hp => exact .pure ⟨hp, ho, hs, he⟩

theorem readUnary (s : Symbol) (hm : V.Machines m m') (hl : V.spans span span') :
    V.Simulates V.Machines (f.readUnary m s span) (f'.readUnary m' s span') := by
  unfold Frame.readUnary
  rw [← hm.skip]
  split
  · exact h.pushPending hm (.paren hl _)
  · split
    · exact h.pushPending hm (.operator _ hl _)
    · exact .fail rfl hl

theorem readBinary (s : Symbol) (hm : V.Machines m m') (hl : V.spans span span') :
    V.Simulates V.Machines (f.readBinary m s span) (f'.readBinary m' s span') := by
  unfold Frame.readBinary
  split
  · refine .bind (h.reduce _ hm hm.pending) ?_
    rintro m m' hm
    refine .bind (h.settle _ hm hl) ?_
    rintro ⟨decided, m⟩ ⟨_, m'⟩ ⟨rfl, hm⟩
    have hs := hm.skip
    dsimp only at hs ⊢
    rw [← hs]
    refine .bind (h.pushPending hm (.operator _ hl _)) ?_
    rintro m m' hm
    refine .pure ⟨hm.pending, hm.operands, ?_, hm.expectsOperand⟩
    rw [hm.skip]
  · exact .fail rfl hl

theorem readPostfix (s : Step) (hm : V.Machines m m') (hl : V.spans span span') :
    V.Simulates V.Machines (f.readPostfix m s span) (f'.readPostfix m' s span') := by
  refine .bind (popOperand hm hl) ?_
  rintro ⟨o, m⟩ ⟨o', m'⟩ ⟨ho, hm⟩
  have hpush : ∀ n, V.Machines { m with operands := .value n :: m.operands }
      { m' with operands := .value n :: m'.operands } := fun n =>
    ⟨hm.pending, .cons (.value n) hm.operands, hm.skip, hm.expectsOperand⟩
  dsimp only
  by_cases hskip : m.skip
  · rw [if_pos hskip, if_pos (hm.skip ▸ hskip)]
    exact .pure (hpush 0)
  · rw [if_neg hskip, if_neg (hm.skip ▸ hskip)]
    refine .bind (h.applyStep s ho hl) ?_
    rintro r _ rfl
    exact .pure (hpush r.1)

theorem readSymbol {t t' : Token} {s : Symbol} (hm : V.Machines m m')
    (ht : V.Tokens f.source f'.source t t') (hv : t.value = .symbol s) :
    V.Simulates V.Machines (f.readSymbol m s t.span) (f'.readSymbol m' s t'.span) := by
  unfold Frame.readSymbol
  rw [← hm.expectsOperand]
  split
  · exact h.closeParen hm ht.span
  · split
    · exact h.readUnary _ hm ht.span
    · split
      · rw [← ht.step _ hv]
        split
        · exact h.readPostfix _ hm ht.span
        · exact h.readBinary _ hm ht.span
      · exact h.readBinary _ hm ht.span

theorem read {t t' : Token} (hm : V.Machines m m') (ht : V.Tokens f.source f'.source t t') :
    V.Simulates V.Machines (f.read m t) (f'.read m' t') := by
  have hl := ht.span
  unfold Frame.read
  rw [← ht.value]
  split
  · exact h.pushOperand hm (.value _) hl
  · exact h.pushOperand hm (.variable _ hl) hl
  · rw [← hm.skip]
    dsimp only
    split
    · exact h.pushOperand hm (.value 0) hl
    · refine .bind (h.descend _ hl (locates_nested hl _)) ?_
      rintro n _ rfl
      exact h.pushOperand hm (.value n) hl
  · rename_i s hv
    exact h.readSymbol hm ht hv

theorem readAll (hm : V.Machines m m') {rs rs' : List Reading}
    (hr : List.Forall₂ (V.Readings f.source f'.source) rs rs') :
    V.Simulates V.Machines (f.readAll m rs) (f'.readAll m' rs') := by
  induction hr generalizing m m' with
  | nil => exact .pure hm
  | cons hr hrs ih =>
    cases hr with
    | token ht => exact .bind (h.read hm ht) fun _ _ hm => ih hm
    | error e hl => exact .fail rfl hl

theorem finish (hm : V.Machines m m') :
    V.Simulates (Option.Rel V.Operands) (f.finish m) (f'.finish m') := by
  unfold Frame.finish
  rw [← hm.expectsOperand]
  split
  · have hp := hm.pending
    generalize m.pending = pending at hp
    generalize m'.pending = pending' at hp
    cases hp with
    | nil => exact .pure .none
    | cons hi hp =>
      cases hi with
      | paren hl => exact .fail rfl hl
      | operator op hl => exact .fail rfl hl
  · refine .bind (h.reduce _ hm hm.pending) ?_
    rintro ⟨pending, operands, skip, e⟩ ⟨pending', operands', skip', e'⟩ ⟨hp, ho, hs, he⟩
    cases hp with
    | nil =>
      cases ho with
      | nil => exact .fail rfl h.whole
      | cons ho hos =>
        cases hos with
        | nil => exact .pure (.some ho)
        | cons _ _ => exact .fail rfl h.whole
    | cons hi hp =>
      cases hi with
      | paren hl => exact .fail rfl hl
      | operator op hl => exact .fail rfl hl

theorem result {r r' : Option Operand} (ho : Option.Rel V.Operands r r') :
    V.Simulates Eq (f.result r) (f'.result r') := by
  cases ho with
  | none => exact .pure rfl
  | some ho =>
    cases ho with
    | value n => exact .pure rfl
    | «variable» name hl =>
      refine .bind (h.get name hl) ?_
      rintro value _ rfl
      dsimp only
      split
      · refine .bind (h.resolve name hl) ?_
        rintro n _ rfl
        exact .pure rfl
      · exact .pure rfl

variable (hr : List.Forall₂ (V.Readings f.source f'.source) (tokens f.source) (tokens f'.source))

include hr

theorem run : V.Simulates (Option.Rel V.Operands) f.run f'.run := by
  have hm : V.Machines {} {} := ⟨.nil, .nil, rfl, rfl⟩
  exact .bind (h.readAll hm hr) fun _ _ hm => h.finish hm

theorem integer : V.Simulates Eq f.integer f'.integer := by
  refine .bind (h.run hr) ?_
  rintro _ _ (ho | -)
  · exact h.valueOf ho
  · exact .pure rfl

theorem value : V.Simulates Eq f.value f'.value :=
  .bind (h.run hr) fun _ _ ho => h.result ho

end Comparison.Frames

namespace Comparison.Accesses

open Simulates

variable {V : Comparison σ σ' ρ ρ' ω ω'} {a : Access σ ρ ω} {a' : Access σ' ρ' ω'}
  {limits limits' : Limits}

theorem readings_refl (source : List Char) :
    List.Forall₂ (V.Readings source source) (tokens source) (tokens source) := by
  rw [List.forall₂_same]
  rintro (⟨e, span⟩ | t) -
  · exact .error e (V.spans_refl span)
  · exact .token ⟨rfl, V.spans_refl _, fun _ _ => rfl⟩

variable (ha : V.Accesses a a')

include ha

theorem evaluateNested {depth depth' : Nat} (hd : V.Bounds .stackOverflow depth depth')
    {levels levels' : Nat} (hn : V.Bounds .nestingTooDeep levels levels') :
    V.Inner (Arith.evaluateNested a depth levels) (Arith.evaluateNested a' depth' levels') := by
  induction levels generalizing levels' with
  | zero =>
    rcases hn with rfl | ⟨hx, -⟩
    · exact .none
    · exact .excused hx
  | succ levels ih =>
    obtain ⟨n, rfl, hk⟩ : ∃ n, levels' = n + 1 ∧ V.Bounds .nestingTooDeep levels n := by
      rcases hn with rfl | ⟨hx, hle⟩
      · exact ⟨levels, rfl, .inl rfl⟩
      · exact ⟨levels' - 1, by omega, .inr ⟨hx, by omega⟩⟩
    refine .some fun body => ?_
    exact Frames.integer ⟨ha, hd, ih hk, V.spans_refl _⟩ (readings_refl body)

variable (hd : V.Bounds .stackOverflow limits.stackDepth limits'.stackDepth)
  (hn : V.Bounds .nestingTooDeep limits.nestingDepth limits'.nestingDepth)

include hd hn

theorem frame {source source' : List Char}
    (hw : V.spans ⟨0, byteLength source⟩ ⟨0, byteLength source'⟩) :
    V.Frames (frame a limits source) (frame a' limits' source') :=
  ⟨ha, hd, ha.evaluateNested hd hn, hw⟩

omit hd hn in
theorem expandWords (body : List Char) :
    V.Simulates Eq (Arith.expandWords a body) (Arith.expandWords a' body) := by
  unfold Arith.expandWords
  split
  · refine .bind (.lift (P := fun r r' => r' = r) (ha.expandWord _)) ?_
    rintro (- | text) _ rfl
    · exact .pure rfl
    · exact .pure rfl
  · exact .pure rfl

/-- The value of the same expression, or where and why it has none. -/
theorem expandWithin (expression : String) :
    V.Simulates Eq (Arith.expandWithin a limits expression)
      (Arith.expandWithin a' limits' expression) := by
  refine .bind (ha.expandWords _) ?_
  rintro source _ rfl
  refine .attempt ((ha.frame hd hn (V.spans_refl _)).value (readings_refl source)) ?_ ?_ ?_
  · rintro value _ rfl
    refine .bind (.lift (P := Eq) fun s s' hs => ⟨rfl, ha.setExitStatus _ s s' hs⟩) ?_
    rintro _ _ -
    exact .pure rfl
  · rintro ⟨c, span⟩ ⟨c', span'⟩ he
    have hthrow : V.Simulates (α := Value) Eq (throw ⟨c, span⟩) (throw ⟨c', span'⟩) :=
      fun _ _ hs => .error he hs
    obtain ⟨hc, -⟩ := he
    dsimp only at hc
    subst hc
    cases c with
    | token e =>
      cases e with
      | strayCharacter =>
        refine .bind (.lift (P := fun r r' => r' = r) (ha.substituteCommand _)) ?_
        rintro (- | message | output) _ rfl
        · exact hthrow
        · exact .fail rfl (V.spans_refl _)
        · exact .pure rfl
      | _ => exact hthrow
    | _ => exact hthrow
  · rintro ⟨c, span⟩ hx
    cases c with
    | token e =>
      have hs := V.not_isSyntax hx
      cases hs
    | _ => rfl

end Comparison.Accesses

end ShellCore.Arith

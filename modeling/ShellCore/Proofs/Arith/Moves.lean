import ShellCore.Proofs.Arith.Meaning
import ShellCore.Proofs.Arith.Outcome

/-! The moves of an evaluation: each applies one operator of the stack or reads one token. -/

namespace ShellCore.Arith

open Text

namespace Machine

/-- The machine with one more operand. -/
def hold (m : Machine) (o : Operand) : Machine :=
  { m with operands := o :: m.operands, expectsOperand := false }

/-- The machine with one more item that waits for an operand. -/
def await (m : Machine) (item : Pending) : Machine :=
  { m with pending := item :: m.pending, expectsOperand := true }

end Machine

theorem Symbol.eq_of_asBinary? {s : Symbol} {op : BinaryOp} (h : s.asBinary? = some op) :
    s = .binary op := by
  cases s <;> simp_all [Symbol.asBinary?]

/-- What follows has the pending operator take its operands first. -/
def Operator.isDue (op : Operator) : List Reading → Bool
  | [] => true
  | .error _ :: _ => false
  | .ok t :: _ =>
    match t.value with
    | .symbol .closeParen => true
    | .symbol s => s.asBinary?.any op.bindsBefore
    | _ => false

/-- A point of an evaluation: the state of reading, and what has not been read yet. -/
structure Point where
  machine : Machine
  unread : List Reading

/-- The operator that is applied next, and what is pending below it. -/
def Point.due? (p : Point) : Option (Operator × Span × Bool × List Pending) :=
  if p.machine.expectsOperand then none
  else match p.machine.pending with
    | .operator op span skip :: pending =>
      if op.isDue p.unread then some (op, span, skip, pending) else none
    | _ => none

namespace Frame

variable {σ ρ ω : Type} (f : Frame σ ρ ω)

/-- What is left of an evaluation. -/
def complete (p : Point) : EvalM σ ρ ω (Option Operand) := do
  f.finish (← f.readAll p.machine p.unread)

/-- Applies the operator that is due, or else reads the next token. At the end nothing is due, and
what is left on the stacks tells the result. -/
def move (p : Point) : EvalM σ ρ ω (Point ⊕ Option Operand) :=
  match p.due? with
  | some (op, span, skip, pending) => do
    let m ← f.apply op span skip p.machine
    return .inl ⟨{ m with pending }, p.unread⟩
  | none =>
    match p.unread with
    | [] => do return .inr (← f.finish p.machine)
    | .error (e, span) :: _ => fail (.token e) span
    | .ok t :: unread => do return .inl ⟨← f.read p.machine t, unread⟩

/-- What an operator makes of the operands on the stack. -/
def combine (op : Operator) (span : Span) (skip : Bool) (operands : List Operand) :
    EvalM σ ρ ω (List Operand) :=
  match op, operands with
  | .unary op, o :: rest => do
    let n ← zeroIf skip (f.applyUnary op o span)
    return .value n :: rest
  | .binary op, o' :: o :: rest => do
    let n ← zeroIf skip (f.applyBinary op o o' span)
    return .value n :: rest
  | _, _ => fail .missingOperand span

/-- An operator changes the operands and, where it ends the skipping, the flag, but nothing else
of the machine. -/
theorem apply_eq (op : Operator) (span : Span) (skip : Bool) (m : Machine) :
    f.apply op span skip m = (do
      let operands ← f.combine op span skip m.operands
      pure { m with operands, skip := skipAfter op skip m }) := by
  obtain ⟨pending, operands, s, e⟩ := m
  cases op with
  | unary op =>
    cases operands with
    | nil => simp only [apply, combine, popOperand, fail_bind]
    | cons o rest =>
      cases skip <;> simp [apply, combine, popOperand, skipAfter]
  | binary op =>
    rcases operands with _ | ⟨o', _ | ⟨o, rest⟩⟩
    · simp only [apply, combine, popOperand, fail_bind]
    · simp only [apply, combine, popOperand, pure_bind, fail_bind]
    · cases op <;> cases skip <;> simp [apply, combine, popOperand, skipAfter]

theorem settle_hold (op : BinaryOp) (m : Machine) (o : Operand) (span : Span) :
    f.settle op (m.hold o) span = (do
      let o' ← settleOperand f op m.skip o
      pure (decides op o', m.hold o')) := by
  cases op <;> cases hm : m.skip <;>
    simp [settle, settleOperand, decides, resolveTop, popOperand, Machine.hold, hm]

theorem pushOperand_yields {m m' : Machine} {o : Operand} {span : Span}
    (hy : Yields (f.pushOperand m o span) m') : m.expectsOperand = true ∧ m' = m.hold o := by
  unfold pushOperand at hy
  split at hy
  · exact (not_yields_fail hy).elim
  · next he =>
    split at hy
    · exact (not_yields_fail hy).elim
    · exact ⟨by simpa using he, yields_pure hy⟩

theorem pushPending_yields {m m' : Machine} {item : Pending}
    (hy : Yields (f.pushPending m item) m') : m' = m.await item := by
  unfold pushPending at hy
  split at hy
  · exact (not_yields_fail hy).elim
  · exact yields_pure hy

theorem reduce_pending (ready : Operator → Bool) (m : Machine) (p : List Pending) :
    ∀ pending, f.reduce ready { m with pending := p } pending = f.reduce ready m pending := by
  intro pending
  induction pending generalizing m with
  | nil => rfl
  | cons item rest ih =>
    cases item with
    | paren => rfl
    | operator op span skip =>
      simp only [reduce, apply_eq, bind_assoc, pure_bind]
      split
      · exact bind_congr fun operands => ih { m with operands, skip := _ }
      · rfl

/-- Where an operator is due, what follows starts by applying those on the stack. -/
theorem complete_eq_reduce {op : Operator} {unread : List Reading} (h : op.isDue unread) :
    ∃ ready : Operator → Bool, ∃ k, ready op ∧ ∀ m : Machine, m.expectsOperand = false →
      f.complete ⟨m, unread⟩ = f.reduce ready m m.pending >>= k := by
  unfold Operator.isDue at h
  split at h
  · refine ⟨fun _ => true, ?_⟩
    apply Exists.intro
    refine ⟨rfl, fun m hm => ?_⟩
    simp only [complete, readAll, finish, hm, pure_bind]
    rfl
  · cases h
  · rename_i t rest
    obtain ⟨value, span⟩ := t
    dsimp only at h
    split at h
    · refine ⟨fun _ => true, ?_⟩
      apply Exists.intro
      refine ⟨rfl, fun m hm => ?_⟩
      simp only [complete, readAll, read, readSymbol, closeParen, hm, Bool.false_eq_true, if_false,
        bind_assoc]
      rfl
    · rename_i s hs
      obtain ⟨q, hq, hb⟩ := (Option.any_eq_true _ _).mp h
      obtain rfl := Symbol.eq_of_asBinary? hq
      refine ⟨(·.bindsBefore q), ?_⟩
      apply Exists.intro
      refine ⟨hb, fun m hm => ?_⟩
      simp only [complete, readAll, read, readSymbol, readBinary, Symbol.asBinary?, hm,
        Bool.false_eq_true, if_false, bind_assoc]
      rfl
    · cases h

/-- The operator that is due takes its operands before reading goes on. -/
theorem complete_of_due {op : Operator} {span : Span} {skip : Bool} {pending : List Pending}
    {m : Machine} {unread : List Reading} (hd : op.isDue unread) (hm : m.expectsOperand = false)
    (hp : m.pending = .operator op span skip :: pending) :
    f.complete ⟨m, unread⟩ = (do
      let operands ← f.combine op span skip m.operands
      f.complete ⟨{ m with pending, operands, skip := skipAfter op skip m }, unread⟩) := by
  obtain ⟨ready, k, hready, hk⟩ := f.complete_eq_reduce hd
  rw [hk m hm, hp, reduce, if_pos hready, apply_eq]
  simp only [bind_assoc, pure_bind]
  refine bind_congr fun operands => ?_
  rw [hk { m with pending, operands, skip := skipAfter op skip m } hm]
  exact congrArg (· >>= k)
    (f.reduce_pending ready { m with operands, skip := skipAfter op skip m } pending pending).symm

end Frame

theorem Point.due?_eq_some_iff {p : Point} {op : Operator} {span : Span} {skip : Bool}
    {pending : List Pending} :
    p.due? = some (op, span, skip, pending) ↔ p.machine.expectsOperand = false ∧
      p.machine.pending = .operator op span skip :: pending ∧ op.isDue p.unread := by
  obtain ⟨⟨items, operands, s, e⟩, unread⟩ := p
  unfold due?
  cases e with
  | true => simp
  | false =>
    rcases items with - | ⟨_ | ⟨op', span', skip'⟩, rest⟩
    · simp
    · simp
    · by_cases hd : op'.isDue unread
      · simp only [Bool.false_eq_true, if_false, hd, if_true, Option.some.injEq, Prod.mk.injEq,
          List.cons.injEq, Pending.operator.injEq]
        constructor
        · rintro ⟨rfl, rfl, rfl, rfl⟩
          exact ⟨trivial, ⟨⟨rfl, rfl, rfl⟩, rfl⟩, hd⟩
        · rintro ⟨-, ⟨⟨rfl, rfl, rfl⟩, rfl⟩, -⟩
          exact ⟨rfl, rfl, rfl, rfl⟩
      · simp only [Bool.false_eq_true, if_false, hd, reduceCtorEq, List.cons.injEq,
          Pending.operator.injEq, false_iff]
        rintro ⟨-, ⟨⟨rfl, rfl, rfl⟩, rfl⟩, h⟩
        exact hd h

namespace Frame

variable {σ ρ ω : Type} (f : Frame σ ρ ω)

/-- An evaluation is a move and what is left after it. -/
theorem complete_eq_move (p : Point) :
    f.complete p = (do
      match ← f.move p with
      | .inl p' => f.complete p'
      | .inr r => pure r) := by
  obtain ⟨m, unread⟩ := p
  unfold move
  split
  · rename_i op span skip pending hd
    obtain ⟨hm, hp, hd⟩ := Point.due?_eq_some_iff.mp hd
    rw [f.complete_of_due hd hm hp, apply_eq]
    simp only [bind_assoc, pure_bind]
  · dsimp only
    cases unread with
    | nil => simp only [complete, readAll, pure_bind, bind_assoc, bind_pure]
    | cons reading unread =>
      cases reading with
      | error e => simp only [complete, readAll, fail_bind]
      | ok t => simp only [complete, readAll, pure_bind, bind_assoc]

/-- Where the operator on top of the stack is not ready, nothing is applied. -/
theorem reduce_of_not_ready {ready : Operator → Bool} {m : Machine}
    (h : ∀ op span skip rest, m.pending = .operator op span skip :: rest → ¬ ready op) :
    f.reduce ready m m.pending = pure m := by
  obtain ⟨pending, operands, skip, e⟩ := m
  rcases pending with - | ⟨_ | ⟨op, span, skip'⟩, rest⟩
  · rfl
  · rfl
  · rw [reduce, if_neg (h op span skip' rest rfl)]

end Frame

/-- One move of an evaluation. All that the surroundings tell are the values `n`, `o` and `o'`. -/
inductive Moves (p : Point) : Point → Prop
  | unary {op : UnaryOp} {span : Span} {skip : Bool} {pending : List Pending} {o : Operand}
    {operands : List Operand} (hd : p.due? = some (.unary op, span, skip, pending))
    (ho : p.machine.operands = o :: operands) (n : Int64) :
    Moves p ⟨{ p.machine with pending, operands := .value n :: operands }, p.unread⟩
  | binary {op : BinaryOp} {span : Span} {skip : Bool} {pending : List Pending} {o o' : Operand}
    {operands : List Operand} (hd : p.due? = some (.binary op, span, skip, pending))
    (ho : p.machine.operands = o' :: o :: operands) (n : Int64) :
    Moves p ⟨{ p.machine with
      pending
      operands := .value n :: operands
      skip := Frame.skipAfter (.binary op) skip p.machine }, p.unread⟩
  | operand {t : Token} {unread : List Reading} (hd : p.due? = none)
    (hu : p.unread = .ok t :: unread) (he : p.machine.expectsOperand = true) (o : Operand) :
    Moves p ⟨p.machine.hold o, unread⟩
  | opening {t : Token} {unread : List Reading} (hd : p.due? = none)
    (hu : p.unread = .ok t :: unread) (he : p.machine.expectsOperand = true) (span : Span) :
    Moves p ⟨p.machine.await (.paren span p.machine.skip), unread⟩
  | sign {t : Token} {unread : List Reading} (hd : p.due? = none)
    (hu : p.unread = .ok t :: unread) (he : p.machine.expectsOperand = true) (op : UnaryOp)
    (span : Span) :
    Moves p ⟨p.machine.await (.operator (.unary op) span p.machine.skip), unread⟩
  | closing {t : Token} {unread : List Reading} {span : Span} {skip : Bool}
    {pending : List Pending} (hd : p.due? = none) (hu : p.unread = .ok t :: unread)
    (he : p.machine.expectsOperand = false) (hp : p.machine.pending = .paren span skip :: pending) :
    Moves p ⟨{ p.machine with pending }, unread⟩
  | stepped {t : Token} {unread : List Reading} {o : Operand} {operands : List Operand}
    (hd : p.due? = none) (hu : p.unread = .ok t :: unread) (he : p.machine.expectsOperand = false)
    (ho : p.machine.operands = o :: operands) (n : Int64) :
    Moves p ⟨{ p.machine with operands := .value n :: operands }, unread⟩
  | between {t : Token} {unread : List Reading} {o : Operand} {operands : List Operand}
    (hd : p.due? = none) (hu : p.unread = .ok t :: unread) (he : p.machine.expectsOperand = false)
    (ho : p.machine.operands = o :: operands) (op : BinaryOp) (span : Span) (o' : Operand) :
    Moves p ⟨{
      pending := .operator (.binary op) span p.machine.skip :: p.machine.pending
      operands := o' :: operands
      skip := p.machine.skip || decides op o'
      expectsOperand := true }, unread⟩

namespace Frame

variable {σ ρ ω : Type} (f : Frame σ ρ ω) {p p' : Point}

theorem not_isDue_of_due?_eq_none (hd : p.due? = none) (he : p.machine.expectsOperand = false)
    {op : Operator} {span : Span} {skip : Bool} {rest : List Pending}
    (hp : p.machine.pending = .operator op span skip :: rest) : ¬ op.isDue p.unread := by
  intro h
  have hs := Point.due?_eq_some_iff.mpr ⟨he, hp, h⟩
  rw [hd] at hs
  cases hs

/-- Where any operator would be due, none is left on top of the stack to apply. -/
theorem reduce_all_eq (hd : p.due? = none) (he : p.machine.expectsOperand = false)
    (hall : ∀ op : Operator, op.isDue p.unread) :
    f.reduce (fun _ => true) p.machine p.machine.pending = pure p.machine :=
  f.reduce_of_not_ready fun op _ _ _ hp => absurd (hall op) (not_isDue_of_due?_eq_none hd he hp)

theorem closeParen_eq {span : Span} {unread : List Reading} (hd : p.due? = none)
    (hu : p.unread = .ok ⟨.symbol .closeParen, span⟩ :: unread)
    (he : p.machine.expectsOperand = false) :
    f.closeParen p.machine span =
      match p.machine.pending with
      | _ :: rest => pure { p.machine with pending := rest }
      | [] => fail .unmatchedParenthesis span := by
  have hall : ∀ op : Operator, op.isDue p.unread := fun op => by
    rw [hu]
    rfl
  rw [closeParen, he, f.reduce_all_eq hd he hall]
  rfl

theorem readBinary_eq {op : BinaryOp} {span : Span} {unread : List Reading} {o : Operand}
    {operands : List Operand} (hd : p.due? = none)
    (hu : p.unread = .ok ⟨.symbol (.binary op), span⟩ :: unread)
    (he : p.machine.expectsOperand = false) (ho : p.machine.operands = o :: operands) :
    f.readBinary p.machine (.binary op) span = (do
      let o' ← settleOperand f op p.machine.skip o
      let m ← f.pushPending { p.machine with operands := o' :: operands }
        (.operator (.binary op) span p.machine.skip)
      pure { m with skip := m.skip || decides op o' }) := by
  have hn : ∀ q span skip rest, p.machine.pending = .operator q span skip :: rest →
      ¬ q.bindsBefore op = true := by
    intro q _ _ _ hp hb
    exact not_isDue_of_due?_eq_none hd he hp (by rw [hu]; exact hb)
  have hs : f.settle op p.machine span = (do
      let o' ← settleOperand f op p.machine.skip o
      pure (decides op o', { p.machine with operands := o' :: operands })) := by
    have hm : p.machine = { p.machine with operands }.hold o := by
      rw [Machine.hold, ← ho, ← he]
    rw [hm, settle_hold]
    rfl
  simp only [readBinary, Symbol.asBinary?, f.reduce_of_not_ready hn, hs, pure_bind, bind_assoc]

theorem moves_of_apply {op : Operator} {span : Span} {skip : Bool} {pending : List Pending}
    {m : Machine} (hd : p.due? = some (op, span, skip, pending))
    (hy : Yields (f.apply op span skip p.machine) m) :
    Moves p ⟨{ m with pending }, p.unread⟩ := by
  rw [apply_eq] at hy
  obtain ⟨operands, hc, hy⟩ := yields_bind hy
  obtain rfl := yields_pure hy
  cases op with
  | unary op =>
    rcases ho : p.machine.operands with - | ⟨o, rest⟩
    · rw [ho] at hc
      exact (not_yields_fail hc).elim
    · rw [ho] at hc
      obtain ⟨n, -, hn⟩ := yields_bind hc
      obtain rfl := yields_pure hn
      exact .unary hd ho n
  | binary op =>
    rcases ho : p.machine.operands with - | ⟨o', - | ⟨o, rest⟩⟩
    · rw [ho] at hc
      exact (not_yields_fail hc).elim
    · rw [ho] at hc
      exact (not_yields_fail hc).elim
    · rw [ho] at hc
      obtain ⟨n, -, hn⟩ := yields_bind hc
      obtain rfl := yields_pure hn
      exact .binary hd ho n

section Reading

variable {t : Token} {unread : List Reading} {m : Machine} {s : Symbol} {span : Span}

theorem moves_of_operand (hd : p.due? = none) (hu : p.unread = .ok t :: unread) {o : Operand}
    (hy : Yields (f.pushOperand p.machine o span) m) : Moves p ⟨m, unread⟩ := by
  obtain ⟨he, rfl⟩ := f.pushOperand_yields hy
  exact .operand hd hu he o

theorem moves_of_readUnary (hd : p.due? = none) (hu : p.unread = .ok t :: unread)
    (he : p.machine.expectsOperand = true) (hy : Yields (f.readUnary p.machine s span) m) :
    Moves p ⟨m, unread⟩ := by
  unfold readUnary at hy
  split at hy
  · obtain rfl := f.pushPending_yields hy
    exact .opening hd hu he span
  · split at hy
    · next op _ =>
      obtain rfl := f.pushPending_yields hy
      exact .sign hd hu he op span
    · exact (not_yields_fail hy).elim

theorem moves_of_closeParen (hd : p.due? = none)
    (hu : p.unread = .ok ⟨.symbol .closeParen, span⟩ :: unread)
    (he : p.machine.expectsOperand = false) (hy : Yields (f.closeParen p.machine span) m) :
    Moves p ⟨m, unread⟩ := by
  rw [f.closeParen_eq hd hu he] at hy
  rcases hp : p.machine.pending with - | ⟨⟨span', skip⟩ | ⟨op, span', skip⟩, rest⟩
  · rw [hp] at hy
    exact (not_yields_fail hy).elim
  · rw [hp] at hy
    obtain rfl := yields_pure hy
    exact .closing hd hu he hp
  · exact absurd (by rw [hu]; rfl) (not_isDue_of_due?_eq_none hd he hp)

theorem moves_of_readPostfix (hd : p.due? = none) (hu : p.unread = .ok t :: unread)
    (he : p.machine.expectsOperand = false) {step : Step}
    (hy : Yields (f.readPostfix p.machine step span) m) : Moves p ⟨m, unread⟩ := by
  rcases ho : p.machine.operands with - | ⟨o, operands⟩
  · rw [readPostfix, popOperand, ho] at hy
    exact (not_yields_fail hy).elim
  · rw [readPostfix, popOperand, ho] at hy
    simp only [pure_bind] at hy
    split at hy
    · obtain rfl := yields_pure hy
      exact .stepped hd hu he ho 0
    · obtain ⟨n, -, hy⟩ := yields_bind hy
      obtain rfl := yields_pure hy
      exact .stepped hd hu he ho n.1

theorem moves_of_readBinary (hd : p.due? = none) (hu : p.unread = .ok ⟨.symbol s, span⟩ :: unread)
    (he : p.machine.expectsOperand = false) (ho : p.machine.operands ≠ [])
    (hy : Yields (f.readBinary p.machine s span) m) : Moves p ⟨m, unread⟩ := by
  obtain ⟨o, operands, ho⟩ := List.exists_cons_of_ne_nil ho
  cases hs : s.asBinary? with
  | none =>
    rw [readBinary, hs] at hy
    exact (not_yields_fail hy).elim
  | some op =>
    obtain rfl := Symbol.eq_of_asBinary? hs
    rw [f.readBinary_eq hd hu he ho] at hy
    obtain ⟨o', -, hy⟩ := yields_bind hy
    obtain ⟨m', hm', hy⟩ := yields_bind hy
    obtain rfl := f.pushPending_yields hm'
    obtain rfl := yields_pure hy
    exact .between hd hu he ho op span o'

theorem moves_of_read (hd : p.due? = none) (hu : p.unread = .ok t :: unread)
    (ho : p.machine.expectsOperand = false → p.machine.operands ≠ [])
    (hy : Yields (f.read p.machine t) m) : Moves p ⟨m, unread⟩ := by
  obtain ⟨value, span⟩ := t
  cases value with
  | constant n => exact f.moves_of_operand hd hu hy
  | «variable» name => exact f.moves_of_operand hd hu hy
  | nested body opening =>
    simp only [read] at hy
    split at hy <;>
    · obtain ⟨n, -, hy⟩ := yields_bind hy
      exact f.moves_of_operand hd hu hy
  | symbol s =>
    simp only [read, readSymbol] at hy
    cases he : p.machine.expectsOperand with
    | true =>
      split at hy
      · rw [closeParen, he] at hy
        exact (not_yields_fail hy).elim
      · rw [he] at hy
        exact f.moves_of_readUnary hd hu he hy
    | false =>
      split at hy
      · exact f.moves_of_closeParen hd hu he hy
      · simp only [he, Bool.false_eq_true, if_false] at hy
        split at hy
        · split at hy
          · exact f.moves_of_readPostfix hd hu he hy
          · exact f.moves_of_readBinary hd hu he (ho he) hy
        · exact f.moves_of_readBinary hd hu he (ho he) hy

end Reading

theorem moves_of_yields (ho : p.machine.expectsOperand = false → p.machine.operands ≠ [])
    (hy : Yields (f.move p) (.inl p')) : Moves p p' := by
  unfold move at hy
  split at hy
  · next hd =>
    obtain ⟨m, hm, hy⟩ := yields_bind hy
    obtain ⟨rfl⟩ := yields_pure hy
    exact f.moves_of_apply hd hm
  · next hd =>
    split at hy
    · obtain ⟨r, -, hy⟩ := yields_bind hy
      cases yields_pure hy
    · exact (not_yields_fail hy).elim
    · next hu =>
      obtain ⟨m, hm, hy⟩ := yields_bind hy
      obtain ⟨rfl⟩ := yields_pure hy
      exact f.moves_of_read hd hu ho hm

/-- The points that an evaluation comes to from the state `s`, each with the state then. -/
inductive Passes (s : σ) : Point → σ → Prop
  | start : Passes s ⟨{}, tokens f.source⟩ s
  | move {p p' : Point} {t t' : σ} (h : Passes s p t)
    (hm : outcome (f.move p) t = (.ok (.inl p'), t')) : Passes s p' t'

/-- A move reads a token, or else takes an operator off the stack. -/
theorem lt_of_move (hy : Yields (f.move p) (.inl p')) :
    p'.unread.length < p.unread.length ∨
      p'.unread = p.unread ∧ p'.machine.pending.length < p.machine.pending.length := by
  unfold move at hy
  split at hy
  · next hd =>
    obtain ⟨m, -, hy⟩ := yields_bind hy
    obtain ⟨rfl⟩ := yields_pure hy
    obtain ⟨-, hp, -⟩ := Point.due?_eq_some_iff.mp hd
    exact .inr ⟨rfl, by simp [hp]⟩
  · split at hy
    · obtain ⟨r, -, hy⟩ := yields_bind hy
      cases yields_pure hy
    · exact (not_yields_fail hy).elim
    · next hu =>
      obtain ⟨m, -, hy⟩ := yields_bind hy
      obtain ⟨rfl⟩ := yields_pure hy
      exact .inl (by simp [hu])

variable {f} in
/-- What is left of an evaluation ends with a last move, which gives its result. -/
theorem Passes.exists_last {p : Point} {s t s' : σ} {r : Except (Error ρ ω) (Option Operand)}
    (h : f.Passes s p t) (hr : outcome (f.complete p) t = (r, s')) :
    ∃ p t, f.Passes s p t ∧ outcome (f.move p) t = (r.map .inr, s') := by
  -- Each move makes the unread text shorter, or else the stack.
  rw [complete_eq_move, outcome_bind] at hr
  rcases hm : outcome (f.move p) t with ⟨e | p' | o, t'⟩
  · rw [hm] at hr
    cases hr
    exact ⟨p, t, h, hm⟩
  · rw [hm] at hr
    have hlt := f.lt_of_move ⟨t, t', hm⟩
    exact (h.move hm).exists_last hr
  · rw [hm] at hr
    cases hr
    exact ⟨p, t, h, hm⟩
termination_by (p.unread.length, p.machine.pending.length)
decreasing_by
  rcases hlt with hl | ⟨hu, hp⟩
  · exact .left _ _ hl
  · rw [hu]
    exact .right _ hp

/-- Every evaluation comes to an end, by a last move at one of its points. -/
theorem exists_last_move {s s' : σ} {r : Except (Error ρ ω) (Option Operand)}
    (hr : outcome f.run s = (r, s')) :
    ∃ p t, f.Passes s p t ∧ outcome (f.move p) t = (r.map .inr, s') :=
  Passes.start.exists_last hr

end Frame

end ShellCore.Arith

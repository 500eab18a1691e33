import ShellCore.Arith.Bindings
import ShellCore.Proofs.Arith.Moves

/-! Operands that are not evaluated: which these are, and that reading them has no effect. -/

namespace ShellCore.Arith

open Text

/-- A pending item and, for a binary operator, its left operand. -/
structure Waiting where
  item : Pending
  lhs : Option Operand

/-- The item is a binary operator that is evaluated, but decided by its left operand alone. -/
def Waiting.isDeciding (e : Waiting) : Bool :=
  match e.item, e.lhs with
  | .operator (.binary op) _ skip, some o => !skip && decides op o
  | _, _ => false

/-- Each binary operator with the operand that stands for its left side. -/
def waiting : List Pending → List Operand → List Waiting
  | [], _ => []
  | .operator (.binary op) span skip :: items, o :: operands =>
    ⟨.operator (.binary op) span skip, some o⟩ :: waiting items operands
  | item :: items, operands => ⟨item, none⟩ :: waiting items operands

theorem items_waiting (items : List Pending) (operands : List Operand) :
    (waiting items operands).map Waiting.item = items := by
  induction items generalizing operands with
  | nil => rfl
  | cons item items ih =>
    rcases item with - | ⟨_ | op, span, skip⟩
    · simp [waiting, ih]
    · simp [waiting, ih]
    · cases operands <;> simp [waiting, ih]

namespace Machine

/-- What is pending. Once an operand has been read, it is the right one of what is on top. -/
def waiting (m : Machine) : List Waiting :=
  Arith.waiting m.pending (if m.expectsOperand then m.operands else m.operands.tail)

theorem items_waiting (m : Machine) : m.waiting.map Waiting.item = m.pending :=
  Arith.items_waiting m.pending _

/-- The items below stand in operands that are evaluated. Those above stand in one that is not,
which is the right operand of the uppermost item below. Where there is no such operand, no item
stands above, so that all that is pending is evaluated. -/
def Partitioned (m : Machine) : Prop :=
  ∃ above below, m.waiting = above ++ below ∧ (∀ e ∈ above, e.item.skip = true) ∧
    (∀ e ∈ below, e.item.skip = false) ∧
    (m.skip = true ↔ ∃ e ∈ below.head?, e.isDeciding) ∧
    (m.skip = false → above = [] ∧ ∀ item ∈ m.pending, item.skip = false)

end Machine

/-- The items above stand in the right operand of one that is decided without it. -/
def Skipping (es : List Waiting) : Prop :=
  ∃ above e below, es = above ++ e :: below ∧ (∀ e' ∈ above, e'.item.skip = true) ∧
    (∀ e' ∈ e :: below, e'.item.skip = false) ∧ e.isDeciding = true

theorem Skipping.cons {es : List Waiting} (h : Skipping es) (top : Waiting)
    (ht : top.item.skip = true) : Skipping (top :: es) := by
  obtain ⟨above, e, below, rfl, ha, hb, he⟩ := h
  refine ⟨top :: above, e, below, rfl, fun e' he' => ?_, hb, he⟩
  rcases List.mem_cons.mp he' with rfl | he'
  · exact ht
  · exact ha e' he'

/-- Items on the stack, and the left operands of the binary operators among them. Each item has the
flag that was set when it was put there. The first argument is the flag that is set above them all:
a binary operator that is decided by its left operand sets it. -/
inductive Layers : Bool → List Pending → List Operand → Prop
  | empty {operands : List Operand} : Layers false [] operands
  | paren {skip : Bool} {items : List Pending} {operands : List Operand}
    (h : Layers skip items operands) (span : Span) :
    Layers skip (.paren span skip :: items) operands
  | unary {skip : Bool} {items : List Pending} {operands : List Operand}
    (h : Layers skip items operands) (op : UnaryOp) (span : Span) :
    Layers skip (.operator (.unary op) span skip :: items) operands
  | binary {skip : Bool} {items : List Pending} {operands : List Operand}
    (h : Layers skip items operands) (op : BinaryOp) (span : Span) (o : Operand) :
    Layers (skip || decides op o) (.operator (.binary op) span skip :: items) (o :: operands)

namespace Layers

variable {skip : Bool} {items : List Pending} {operands : List Operand}

theorem of_paren {span : Span} {below : Bool}
    (h : Layers skip (.paren span below :: items) operands) :
    below = skip ∧ Layers skip items operands := by
  cases h with
  | paren h => exact ⟨rfl, h⟩

theorem of_unary {op : UnaryOp} {span : Span} {below : Bool}
    (h : Layers skip (.operator (.unary op) span below :: items) operands) :
    below = skip ∧ Layers skip items operands := by
  cases h with
  | unary h => exact ⟨rfl, h⟩

theorem of_binary {op : BinaryOp} {span : Span} {below : Bool}
    (h : Layers skip (.operator (.binary op) span below :: items) operands) :
    ∃ o rest, operands = o :: rest ∧ skip = (below || decides op o) ∧ Layers below items rest := by
  cases h with
  | binary h op span o => exact ⟨o, _, rfl, rfl, h⟩

/-- Where nothing is skipped, no item stands in a skipped operand, and none is decided. -/
theorem of_evaluated (h : Layers skip items operands) (hs : skip = false) :
    ∀ e ∈ waiting items operands, e.item.skip = false ∧ e.isDeciding = false := by
  induction h with
  | empty => simp [waiting]
  | paren h span ih =>
    subst hs
    simpa [waiting, Pending.skip, Waiting.isDeciding] using ih rfl
  | unary h op span ih =>
    subst hs
    simpa [waiting, Pending.skip, Waiting.isDeciding] using ih rfl
  | binary h op span o ih =>
    obtain ⟨rfl, hd⟩ := Bool.or_eq_false_iff.mp hs
    simpa [waiting, Pending.skip, Waiting.isDeciding, hd] using ih rfl

/-- What is skipped is the right operand of the one deciding operator. -/
theorem of_skipped (h : Layers skip items operands) (hs : skip = true) :
    Skipping (waiting items operands) := by
  induction h with
  | empty => cases hs
  | paren h span ih =>
    subst hs
    exact (ih rfl).cons ⟨.paren span true, none⟩ rfl
  | unary h op span ih =>
    subst hs
    exact (ih rfl).cons ⟨.operator (.unary op) span true, none⟩ rfl
  | @binary skip items operands h op span o ih =>
    cases skip with
    | true => exact (ih rfl).cons ⟨.operator (.binary op) span true, some o⟩ rfl
    | false =>
      -- Below the first operator that decides, nothing is skipped.
      have hd : decides op o = true := by simpa using hs
      refine ⟨[], ⟨.operator (.binary op) span false, some o⟩, waiting items operands, rfl, by simp,
        ?_, hd⟩
      simpa [Pending.skip] using fun e he => (h.of_evaluated rfl e he).1

end Layers

namespace Machine

/-- The invariant of an evaluation. -/
def Layered (m : Machine) : Prop :=
  (m.expectsOperand = false → m.operands ≠ []) ∧
    Layers m.skip m.pending (if m.expectsOperand then m.operands else m.operands.tail)

theorem Layered.partitioned {m : Machine} (h : m.Layered) : m.Partitioned := by
  obtain ⟨-, h⟩ := h
  unfold Partitioned waiting
  cases hs : m.skip with
  | true =>
    obtain ⟨above, e, below, hw, ha, hb, he⟩ := h.of_skipped hs
    exact ⟨above, e :: below, hw, ha, hb, by simp [he], by simp⟩
  | false =>
    have hw := h.of_evaluated hs
    refine ⟨[], _, rfl, by simp, fun e he => (hw e he).1, ?_, fun _ => ⟨rfl, ?_⟩⟩
    · simp only [Bool.false_eq_true, false_iff]
      rintro ⟨e, he, hd⟩
      have hn := (hw e (List.mem_of_mem_head? he)).2
      rw [hd] at hn
      cases hn
    · intro item hi
      rw [← m.items_waiting] at hi
      obtain ⟨e, he, rfl⟩ := List.mem_map.mp hi
      exact (hw e he).1

end Machine

/-- Once an operator has been applied, what follows is skipped if the operator stands in a skipped
operand. -/
theorem skipAfter_eq {op : BinaryOp} {skip : Bool} {m : Machine} {o : Operand}
    (h : m.skip = (skip || decides op o)) : Frame.skipAfter (.binary op) skip m = skip := by
  cases op <;> simp_all [Frame.skipAfter, decides]

namespace Moves

variable {p p' : Point}

theorem layered (h : Moves p p') (hl : p.machine.Layered) : p'.machine.Layered := by
  obtain ⟨hne, hl⟩ := hl
  cases h with
  | unary hd ho n =>
    obtain ⟨he, hp, -⟩ := Point.due?_eq_some_iff.mp hd
    rw [he, hp, ho] at hl
    obtain ⟨-, hl⟩ := hl.of_unary
    exact ⟨by simp, by simpa [he] using hl⟩
  | @binary op span skip pending o o' operands hd ho n =>
    obtain ⟨he, hp, -⟩ := Point.due?_eq_some_iff.mp hd
    rw [he, hp, ho] at hl
    obtain ⟨_, _, ⟨⟩, hs, hl⟩ := hl.of_binary
    refine ⟨by simp, ?_⟩
    simpa [he, skipAfter_eq hs] using hl
  | operand hd hu he o =>
    rw [he] at hl
    exact ⟨by simp [Machine.hold], hl⟩
  | opening hd hu he span =>
    rw [he] at hl
    exact ⟨by simp [Machine.await], hl.paren span⟩
  | sign hd hu he op span =>
    rw [he] at hl
    exact ⟨by simp [Machine.await], hl.unary op span⟩
  | closing hd hu he hp =>
    rw [hp] at hl
    exact ⟨hne, hl.of_paren.2⟩
  | stepped hd hu he ho n =>
    rw [he, ho] at hl
    exact ⟨by simp, by simpa [he] using hl⟩
  | between hd hu he ho op span o' =>
    rw [he, ho] at hl
    exact ⟨by simp, hl.binary op span o'⟩

/-- Nothing but the operator that started the skipping ends it. -/
theorem skip_eq_false_iff (h : Moves p p') (hl : p.machine.Layered)
    (hs : p.machine.skip = true) :
    p'.machine.skip = false ↔
      p.due?.isSome ∧ ∃ e ∈ p.machine.waiting.head?, e.isDeciding := by
  cases h with
  | unary hd ho n =>
    obtain ⟨he, hp, -⟩ := Point.due?_eq_some_iff.mp hd
    simp [hs, Machine.waiting, hp, waiting, Waiting.isDeciding]
  | @binary op span skip pending o o' operands hd ho n =>
    obtain ⟨he, hp, -⟩ := Point.due?_eq_some_iff.mp hd
    have hl := hl.2
    rw [he, hp, ho] at hl
    obtain ⟨_, _, ⟨⟩, hd', -⟩ := hl.of_binary
    have hw : p.machine.waiting.head? = some ⟨.operator (.binary op) span skip, some o⟩ := by
      simp [Machine.waiting, hp, he, ho, waiting]
    rw [hd, hw, skipAfter_eq hd']
    rw [hs] at hd'
    cases skip with
    | true => simp [Waiting.isDeciding]
    | false => simpa [Waiting.isDeciding] using hd'.symm
  | operand hd hu he o => simp [hs, hd, Machine.hold]
  | opening hd hu he span => simp [hs, hd, Machine.await]
  | sign hd hu he op span => simp [hs, hd, Machine.await]
  | closing hd hu he hp => simp [hs, hd]
  | stepped hd hu he ho n => simp [hs, hd]
  | between hd hu he ho op span o' => simp [hs, hd]

end Moves

namespace Frame

variable {σ ρ ω : Type} {f : Frame σ ρ ω}

theorem Passes.layered {s t : σ} {p : Point} (h : f.Passes s p t) : p.machine.Layered := by
  induction h with
  | start => exact ⟨by simp, .empty⟩
  | move h hm ih => exact (f.moves_of_yields ih.1 ⟨_, _, hm⟩).layered ih

end Frame

/-- The tokens are at fault, and not what they compute: there is none to read, they do not fit
together, or they are too many. -/
def Cause.isStructural {ρ ω : Type} : Cause ρ ω → Bool
  | .token _ | .unmatchedParenthesis | .missingOperand | .malformedExpression
  | .stackOverflow => true
  | _ => false

/-- The computation has one result, whatever variables there are and whatever nested expressions
yield. It asks nothing of its surroundings and leaves every state as it is. -/
def Silent {σ ρ ω α : Type} (f : Frame σ ρ ω) (x : Frame σ ρ ω → EvalM σ ρ ω α) : Prop :=
  ∃ r, (∀ access inner s, outcome (x { f with access, inner }) s = (r, s)) ∧
    ∀ e, r = .error e → e.cause.isStructural

section Silent

variable {σ ρ ω α β : Type} {f : Frame σ ρ ω}

namespace Silent

theorem pure (a : α) : Silent f fun _ => (Pure.pure a : EvalM σ ρ ω α) :=
  ⟨.ok a, fun _ _ _ => rfl, by simp⟩

theorem fail (cause : Cause ρ ω) (span : Span) (h : cause.isStructural) :
    Silent f fun _ => (Arith.fail cause span : EvalM σ ρ ω α) := by
  refine ⟨.error ⟨cause, span⟩, fun _ _ _ => rfl, ?_⟩
  rintro _ ⟨⟩
  exact h

theorem congr {x y : Frame σ ρ ω → EvalM σ ρ ω α} (hy : Silent f y)
    (h : ∀ access inner, x { f with access, inner } = y { f with access, inner }) :
    Silent f x := by
  obtain ⟨r, hr, hc⟩ := hy
  exact ⟨r, fun access inner s => by rw [h, hr], hc⟩

theorem bind {x : Frame σ ρ ω → EvalM σ ρ ω α} {k : Frame σ ρ ω → α → EvalM σ ρ ω β}
    (hx : Silent f x) (hk : ∀ a, Silent f (k · a)) : Silent f fun g => x g >>= k g := by
  obtain ⟨r, hr, hc⟩ := hx
  cases r with
  | error e =>
    refine ⟨.error e, fun access inner s => ?_, ?_⟩
    · rw [outcome_bind, hr]
    · rintro _ ⟨⟩
      exact hc e rfl
  | ok a =>
    obtain ⟨r', hr', hc'⟩ := hk a
    refine ⟨r', fun access inner s => ?_, hc'⟩
    rw [outcome_bind, hr]
    exact hr' access inner s

end Silent

namespace Frame

variable {m : Machine} {span : Span}

theorem silent_pushOperand (m : Machine) (o : Operand) (span : Span) :
    Silent f (·.pushOperand m o span) := by
  cases he : m.expectsOperand with
  | false =>
    refine (Silent.fail .malformedExpression span rfl).congr fun access inner => ?_
    simp only [pushOperand, he]
    rfl
  | true =>
    by_cases hd : f.stackDepth ≤ m.operands.length
    · refine (Silent.fail .stackOverflow span rfl).congr fun access inner => ?_
      simp only [pushOperand, he, if_pos hd]
      rfl
    · refine (Silent.pure (m.hold o)).congr fun access inner => ?_
      simp only [pushOperand, he, if_neg hd]
      rfl

theorem silent_pushPending (m : Machine) (item : Pending) : Silent f (·.pushPending m item) := by
  by_cases hd : f.stackDepth ≤ m.pending.length
  · exact (Silent.fail .stackOverflow item.span rfl).congr fun access inner => if_pos hd
  · exact (Silent.pure (m.await item)).congr fun access inner => if_neg hd

theorem applyBinary_of_decides {op : BinaryOp} {o : Operand} (h : decides op o = true)
    (o' : Operand) (span : Span) :
    ∃ n, ∀ g : Frame σ ρ ω, g.applyBinary op o o' span = pure n := by
  cases op with
  | logicalAnd =>
    cases o with
    | value n =>
      have hn : n = 0 := by simpa [decides] using h
      exact ⟨0, fun g => by simp [applyBinary, valueOf, hn]⟩
    | «variable» => cases h
  | logicalOr =>
    cases o with
    | value n =>
      have hn : n ≠ 0 := by simpa [decides] using h
      exact ⟨1, fun g => by simp [applyBinary, valueOf, hn]⟩
    | «variable» => cases h
  | _ => cases o <;> cases h

variable {p : Point}

/-- An operator that is applied while operands are skipped stands in a skipped operand, or is the
one that skips its right operand. -/
theorem silent_apply {op : Operator} {skip : Bool} {pending : List Pending}
    (hl : p.machine.Layered) (hs : p.machine.skip = true)
    (hd : p.due? = some (op, span, skip, pending)) :
    Silent f (·.apply op span skip p.machine) := by
  obtain ⟨he, hp, -⟩ := Point.due?_eq_some_iff.mp hd
  obtain ⟨hne, hl⟩ := hl
  obtain ⟨o', rest, ho⟩ := List.exists_cons_of_ne_nil (hne he)
  rw [hs, he, hp, ho] at hl
  suffices hc : Silent f fun g => g.combine op span skip p.machine.operands by
    exact (hc.bind fun _ => .pure _).congr fun access inner => apply_eq _ op span skip p.machine
  rw [ho]
  cases op with
  | unary op =>
    obtain ⟨rfl, -⟩ := hl.of_unary
    exact .pure (.value 0 :: rest)
  | binary op =>
    obtain ⟨o, rest, rfl, hd, -⟩ := hl.of_binary
    cases skip with
    | true => exact .pure (.value 0 :: rest)
    | false =>
      obtain ⟨n, hn⟩ : ∃ n, ∀ g : Frame σ ρ ω, g.applyBinary op o o' span = pure n :=
        applyBinary_of_decides hd.symm o' span
      refine (Silent.pure (.value n :: rest)).congr fun access inner => ?_
      simp only [combine, zeroIf_false, hn, pure_bind]

section Read

variable {t : Token} {unread : List Reading} {s : Symbol}

theorem silent_readUnary (m : Machine) (s : Symbol) (span : Span) :
    Silent f (·.readUnary m s span) := by
  unfold readUnary
  split
  · exact silent_pushPending m _
  · split
    · exact silent_pushPending m _
    · exact .fail .missingOperand span rfl

theorem silent_closeParen (hd : p.due? = none)
    (hu : p.unread = .ok ⟨.symbol .closeParen, span⟩ :: unread)
    (he : p.machine.expectsOperand = false) : Silent f (·.closeParen p.machine span) := by
  cases hp : p.machine.pending with
  | nil =>
    refine (Silent.fail .unmatchedParenthesis span rfl).congr fun access inner => ?_
    simp only [closeParen_eq _ hd hu he, hp]
  | cons item rest =>
    refine (Silent.pure { p.machine with pending := rest }).congr fun access inner => ?_
    simp only [closeParen_eq _ hd hu he, hp]

theorem silent_readPostfix (hs : p.machine.skip = true) {o : Operand} {operands : List Operand}
    (ho : p.machine.operands = o :: operands) (step : Step) (span : Span) :
    Silent f (·.readPostfix p.machine step span) := by
  refine (Silent.pure { p.machine with operands := .value 0 :: operands }).congr
    fun access inner => ?_
  simp only [readPostfix, popOperand, ho, hs, pure_bind, if_true]

theorem silent_readBinary (hd : p.due? = none)
    (hu : p.unread = .ok ⟨.symbol s, span⟩ :: unread) (hs : p.machine.skip = true)
    (he : p.machine.expectsOperand = false) {o : Operand} {operands : List Operand}
    (ho : p.machine.operands = o :: operands) : Silent f (·.readBinary p.machine s span) := by
  cases hop : s.asBinary? with
  | none =>
    refine (Silent.fail .malformedExpression span rfl).congr fun access inner => ?_
    simp only [readBinary, hop]
  | some op =>
    obtain rfl := Symbol.eq_of_asBinary? hop
    have hsettle : Silent f fun g => settleOperand g op p.machine.skip o := by
      rw [hs]
      cases op with
      | logicalAnd | logicalOr => exact .pure (Operand.value 0)
      | _ => exact .pure o
    exact (hsettle.bind fun o' => (silent_pushPending _ _).bind fun m => .pure _).congr
      fun access inner => readBinary_eq _ hd hu he ho

theorem silent_read (hd : p.due? = none) (hu : p.unread = .ok t :: unread)
    (hs : p.machine.skip = true) (ho : p.machine.expectsOperand = false → p.machine.operands ≠ []) :
    Silent f (·.read p.machine t) := by
  obtain ⟨value, span⟩ := t
  cases value with
  | constant n => exact silent_pushOperand p.machine _ span
  | «variable» name => exact silent_pushOperand p.machine _ span
  | nested body opening =>
    refine (silent_pushOperand p.machine (.value 0) span).congr fun access inner => ?_
    simp only [read, hs, if_true, pure_bind]
  | symbol s =>
    cases he : p.machine.expectsOperand with
    | true =>
      by_cases hc : s = .closeParen
      · subst hc
        refine (Silent.fail .missingOperand span rfl).congr fun access inner => ?_
        simp only [read, readSymbol, closeParen, he, if_true]
      · refine (silent_readUnary p.machine s span).congr fun access inner => ?_
        simp only [read, readSymbol, he, if_true]
    | false =>
      obtain ⟨o, operands, ho⟩ := List.exists_cons_of_ne_nil (ho he)
      have hb := silent_readBinary (f := f) hd hu hs he ho
      cases s with
      | closeParen => exact silent_closeParen hd hu he
      | step step =>
        by_cases hn : endsWithName (takeBytes span.start f.source)
        · refine (silent_readPostfix hs ho step span).congr fun access inner => ?_
          simp only [read, readSymbol, he, Bool.false_eq_true, if_false, hn, if_true]
        · refine hb.congr fun access inner => ?_
          simp only [read, readSymbol, he, Bool.false_eq_true, if_false, hn]
      | openParen | unary | binary =>
        refine hb.congr fun access inner => ?_
        simp only [read, readSymbol, he, Bool.false_eq_true, if_false]

end Read

/-- At the end, items that are pending for a skipped operand are an error. -/
theorem finish_skipping (hl : p.machine.Layered) (hs : p.machine.skip = true)
    (hd : p.due? = none) (hu : p.unread = []) :
    ∃ cause span, Cause.isStructural cause ∧
      ∀ g : Frame σ ρ ω, g.finish p.machine = fail cause span := by
  have hl := hl.2
  cases hp : p.machine.pending with
  | nil =>
    obtain ⟨above, e, below, hw, -⟩ := hl.of_skipped hs
    simp [hp, waiting] at hw
  | cons item rest =>
    cases he : p.machine.expectsOperand with
    | true => exact ⟨.missingOperand, item.span, rfl, fun g => by simp [finish, he, hp]⟩
    | false =>
      have hall : ∀ op : Operator, op.isDue p.unread := fun op => by
        rw [hu]
        rfl
      refine ⟨.unmatchedParenthesis, item.span, rfl, fun g => ?_⟩
      simp only [finish, he, Bool.false_eq_true, if_false, g.reduce_all_eq hd he hall, pure_bind]
      rw [hp]

theorem silent_move (hl : p.machine.Layered) (hs : p.machine.skip = true) :
    Silent f (·.move p) := by
  cases hd : p.due? with
  | some due =>
    obtain ⟨op, span, skip, pending⟩ := due
    refine ((silent_apply hl hs hd).bind fun m => .pure (.inl ⟨{ m with pending }, p.unread⟩)).congr
      fun access inner => ?_
    simp only [move, hd]
  | none =>
    cases hu : p.unread with
    | nil =>
      obtain ⟨cause, span, hc, hg⟩ := finish_skipping (σ := σ) (ρ := ρ) (ω := ω) hl hs hd hu
      refine (Silent.fail cause span hc).congr fun access inner => ?_
      simp only [move, hd, hu, hg, fail_bind]
    | cons reading unread =>
      cases reading with
      | error e =>
        refine (Silent.fail (.token e.1) e.2 rfl).congr fun access inner => ?_
        simp only [move, hd, hu]
      | ok t =>
        refine ((silent_read hd hu hs hl.1).bind fun m => .pure (.inl ⟨m, unread⟩)).congr
          fun access inner => ?_
        simp only [move, hd, hu]

/-- No evaluation ends while it skips an operand. -/
theorem skip_of_last_move {r : Option Operand} (hl : p.machine.Layered)
    (hy : Yields (f.move p) (.inr r)) : p.machine.skip = false := by
  cases hs : p.machine.skip with
  | false => rfl
  | true =>
    unfold move at hy
    split at hy
    · obtain ⟨m, -, hy⟩ := yields_bind hy
      cases yields_pure hy
    · next hd =>
      split at hy
      · next hu =>
        obtain ⟨cause, span, -, hg⟩ := finish_skipping (σ := σ) (ρ := ρ) (ω := ω) hl hs hd hu
        rw [hg] at hy
        exact (not_yields_fail hy).elim
      · exact (not_yields_fail hy).elim
      · obtain ⟨m, -, hy⟩ := yields_bind hy
        cases yields_pure hy

end Frame

end Silent

/-- At every point of an evaluation, whether it succeeds or not, the pending items tell whether what
is read now is skipped, and which operator skips it. While it is, nothing is asked of the
surroundings, and no error but one of the tokens themselves is found. Only the operator that skips
its right operand ends that, and a result is never found before. -/
theorem skipped_operands_have_no_effect {σ ρ ω : Type} (f : Frame σ ρ ω) (s : σ) :
    (∀ p t, f.Passes s p t →
      p.machine.Partitioned ∧
      (p.machine.skip = true → Silent f (·.move p)) ∧
      (∀ p' t', outcome (f.move p) t = (.ok (.inl p'), t') → p.machine.skip = true →
        (p'.machine.skip = false ↔
          p.due?.isSome ∧ ∃ e ∈ p.machine.waiting.head?, e.isDeciding))) ∧
    ∀ r s', outcome f.run s = (r, s') →
      ∃ p t, f.Passes s p t ∧ outcome (f.move p) t = (r.map .inr, s') ∧
        ∀ o, r = .ok o → p.machine.skip = false := by
  refine ⟨fun p t h => ⟨h.layered.partitioned, Frame.silent_move h.layered, ?_⟩, ?_⟩
  · intro p' t' hm hs
    exact (f.moves_of_yields h.layered.1 ⟨t, t', hm⟩).skip_eq_false_iff h.layered hs
  · intro r s' hr
    obtain ⟨p, t, h, hm⟩ := f.exists_last_move hr
    refine ⟨p, t, h, hm, ?_⟩
    rintro o rfl
    exact Frame.skip_of_last_move h.layered ⟨t, s', hm⟩

theorem skipped_quotient_has_no_effect :
    let f := frame Bindings.access {} "0&&1/0".toList
    ∃ p, f.Passes {} p {} ∧ p.machine.skip = true ∧ Silent f (·.move p) := by
  intro f
  have hzero : outcome (f.move ⟨{}, tokens f.source⟩) {} =
      (.ok (.inl ⟨{ operands := [.value 0], expectsOperand := false },
        (tokens f.source).drop 1⟩), {}) := rfl
  have hand : outcome (f.move ⟨{ operands := [.value 0], expectsOperand := false },
      (tokens f.source).drop 1⟩) {} =
      (.ok (.inl ⟨{
        pending := [.operator (.binary .logicalAnd) ⟨1, 3⟩ false]
        operands := [.value 0]
        skip := true }, (tokens f.source).drop 2⟩), {}) := rfl
  have h := (Frame.Passes.start.move hzero).move hand
  exact ⟨_, h, rfl, ((skipped_operands_have_no_effect f {}).1 _ _ h).2.1 rfl⟩

end ShellCore.Arith

import ShellCore.Arith.Bindings
import ShellCore.Proofs.Arith.Moves

/-! Reading the tokens of a tree on two stacks amounts to evaluating the tree. -/

namespace ShellCore.Arith

open Text

namespace Frame

variable {σ ρ ω : Type} (f : Frame σ ρ ω)

/-- Reads the tokens that are left, to the end of the text. -/
def readOn (m : Machine) (ts : List Token) : EvalM σ ρ ω (Option Operand) := do
  f.finish (← f.readAll m (ts.map .ok))

theorem readOn_cons (m : Machine) (t : Token) (ts : List Token) :
    f.readOn m (t :: ts) = (do f.readOn (← f.read m t) ts) := by simp [readOn, readAll]

end Frame

/-- What follows a tree at the level applies all operators of the tree, unless it has none on the
stack. -/
def Ends (level : Nat) : List Token → Prop
  | [] => True
  | ⟨.symbol .closeParen, _⟩ :: _ => True
  | ⟨.symbol (.binary op), _⟩ :: _ => op.leftLevel ≤ level
  | _ :: _ => stepLevel ≤ level

theorem Ends.mono {level level' : Nat} {ts : List Token} (h : Ends level ts)
    (hl : level ≤ level') : Ends level' ts := by
  unfold Ends at h ⊢
  split at h
  · trivial
  · trivial
  · exact Nat.le_trans h hl
  · exact Nat.le_trans h hl

theorem ends_stepLevel (ts : List Token) : Ends stepLevel ts := by
  unfold Ends
  split
  · trivial
  · trivial
  · exact Nat.le_of_lt (leftLevel_lt_stepLevel _)
  · exact Nat.le_refl _

theorem Ends.isDue {level : Nat} {rest : List Token} (h : Ends level rest) {op : Operator}
    (hl : level ≤ op.precedence) : op.isDue (rest.map .ok) := by
  have hs := Nat.lt_of_le_of_lt hl (precedence_lt_stepLevel op)
  unfold Ends at h
  split at h
  · rfl
  · rfl
  · exact bindsBefore_iff.mpr (Nat.le_trans h hl)
  · omega

namespace Frame

variable {σ ρ ω : Type} (f : Frame σ ρ ω) {level : Nat} {rest : List Token}

/-- The pending operator over which a tree has been read takes the operand before reading goes
on. -/
theorem readOn_operator (h : Ends level rest) (op : Operator) (hl : level ≤ op.precedence)
    {span : Span} {skip : Bool} {pending : List Pending} {m : Machine}
    (hm : m.expectsOperand = false) (hp : m.pending = .operator op span skip :: pending) :
    f.readOn m rest = (do
      let operands ← f.combine op span skip m.operands
      f.readOn { m with pending, operands, skip := skipAfter op skip m } rest) :=
  f.complete_of_due (h.isDue hl) hm hp

theorem pushOperand_agrees {m : Machine} (hm : m.expectsOperand = true) (o : Operand)
    (span : Span) : Agrees (f.pushOperand m o span) (pure (m.hold o)) := by
  intro s
  unfold pushOperand
  rw [hm, if_neg (by simp)]
  split
  · exact .inr ⟨span, s, rfl⟩
  · exact .inl rfl

theorem pushPending_agrees (m : Machine) (item : Pending) :
    Agrees (f.pushPending m item) (pure (m.await item)) := by
  intro s
  unfold pushPending
  split
  · exact .inr ⟨item.span, s, rfl⟩
  · exact .inl rfl

theorem reduce_of_floor_le {op : BinaryOp} {m : Machine} (h : floor m.pending ≤ op.precedence) :
    f.reduce (·.bindsBefore op) m m.pending = pure m := by
  obtain ⟨pending, operands, skip, e⟩ := m
  cases pending with
  | nil => rfl
  | cons item rest =>
    cases item with
    | paren => rfl
    | operator q span skip =>
      have hq := floor_operator_le_iff.mp h
      rw [reduce, if_neg hq]

theorem readOn_binary {op : BinaryOp} {m : Machine} (h : floor m.pending ≤ op.precedence)
    (o : Operand) (span : Span) (ts : List Token) :
    f.readOn (m.hold o) (⟨.symbol (.binary op), span⟩ :: ts) = (do
      let o' ← settleOperand f op m.skip o
      let m' ← f.pushPending (m.hold o') (.operator (.binary op) span m.skip)
      f.readOn { m' with skip := m'.skip || decides op o' } ts) := by
  have hr : f.reduce (·.bindsBefore op) (m.hold o) (m.hold o).pending = pure (m.hold o) :=
    f.reduce_of_floor_le h
  rw [readOn_cons]
  show (do f.readOn (← f.readBinary (m.hold o) (.binary op) span) ts) = _
  simp only [readBinary, Symbol.asBinary?, hr, settle_hold, bind_assoc, pure_bind]
  rfl

/-- Reading the tokens does what evaluating the tree and putting its operand on the stack does. The
operators that the tree leaves on the stack are applied when `rest` ends it. -/
def Reads (level : Nat) (ts : List Token) (t : Tree) : Prop :=
  ∀ (m : Machine) (rest : List Token), m.expectsOperand = true → floor m.pending ≤ level →
    Ends level rest →
    Agrees (f.readOn m (ts ++ rest)) (do let o ← t.within f m.skip; f.readOn (m.hold o) rest)

theorem reads_atom {a : Token} {t : Tree}
    (h : ∀ m, f.read m a = (do let o ← t.within f m.skip; f.pushOperand m o a.span)) :
    f.Reads level [a] t := by
  intro m rest hm _ _
  rw [List.singleton_append, readOn_cons, h, bind_assoc]
  exact Agrees.bind_right fun o =>
    Agrees.bind_pure (f.pushOperand_agrees hm o a.span) (Agrees.refl _)

/-- Parentheses hide all operators inside them. -/
theorem reads_paren {ts : List Token} {t : Tree} {a b : Span} (h : f.Reads 0 ts t) :
    f.Reads level (⟨.symbol .openParen, a⟩ :: (ts ++ [⟨.symbol .closeParen, b⟩])) t := by
  intro m rest hm _ _
  have hread : f.read m ⟨.symbol .openParen, a⟩ = f.pushPending m (.paren a m.skip) := by
    simp [read, readSymbol, readUnary, hm]
  rw [List.cons_append, readOn_cons, hread, List.append_assoc]
  refine Agrees.bind_pure (f.pushPending_agrees m _) ?_
  have hin := h (m.await (.paren a m.skip)) (⟨.symbol .closeParen, b⟩ :: rest) rfl (Nat.le_refl 0)
    trivial
  refine hin.trans (Agrees.bind_right fun o => Agrees.of_eq ?_)
  rw [readOn_cons]
  rfl

theorem reads_stepped {ts : List Token} {t : Tree} {s : Step} {span : Span}
    (hn : endsWithName (takeBytes span.start f.source)) (h : f.Reads stepLevel ts t) :
    f.Reads level (ts ++ [⟨.symbol (.step s), span⟩]) (.stepped s span t) := by
  intro m rest hm _ _
  rw [List.append_assoc]
  refine (h m _ hm (Nat.le_of_lt (floor_lt_stepLevel _)) (ends_stepLevel _)).trans ?_
  have hread : ∀ o, f.read (m.hold o) ⟨.symbol (.step s), span⟩ = (do
      let n ← zeroIf m.skip do pure (← f.applyStep s o span).1
      pure (m.hold (.value n))) := by
    intro o
    cases hs : m.skip <;>
      simp [read, readSymbol, readPostfix, popOperand, Machine.hold, hn, hs]
  refine Agrees.of_eq ?_
  simp only [List.singleton_append, readOn_cons, hread, bind_assoc, pure_bind]
  cases hs : m.skip
  · simp [Tree.within, operand_stepped]
  · simp [Tree.within, Tree.residue]

theorem reads_unary {ts : List Token} {t : Tree} {s : Symbol} {op : UnaryOp} {span : Span}
    (hs : s.asUnary? = some op) (hl : level ≤ (Operator.unary op).precedence)
    (h : f.Reads (Operator.unary op).precedence ts t) :
    f.Reads level (⟨.symbol s, span⟩ :: ts) (.unary op span t) := by
  intro m rest hm _ he
  have hread : f.read m ⟨.symbol s, span⟩ =
      f.pushPending m (.operator (.unary op) span m.skip) := by
    cases s <;> simp_all [read, readSymbol, readUnary, Symbol.asUnary?]
  rw [List.cons_append, readOn_cons, hread]
  refine Agrees.bind_pure (f.pushPending_agrees m _) ?_
  refine (h (m.await _) rest rfl (Nat.le_refl _) (he.mono hl)).trans (Agrees.of_eq ?_)
  have happly : ∀ o, f.readOn ((m.await (.operator (.unary op) span m.skip)).hold o) rest = (do
      let n ← zeroIf m.skip (f.applyUnary op o span)
      f.readOn (m.hold (.value n)) rest) := by
    intro o
    rw [f.readOn_operator he (.unary op) hl rfl rfl]
    simp only [combine, Machine.hold, Machine.await, skipAfter, bind_assoc, pure_bind]
  simp only [happly]
  cases hs : m.skip
  · simp [Tree.within, operand_unary, Machine.await, hs]
  · simp [Tree.within, Tree.residue, Machine.await, hs]

theorem reads_binary {ts us : List Token} {t u : Tree} {op : BinaryOp} {span : Span}
    (hl : level ≤ op.precedence) (ht : f.Reads op.leftLevel ts t)
    (hu : f.Reads op.rightLevel us u) :
    f.Reads level (ts ++ ⟨.symbol (.binary op), span⟩ :: us) (.binary op span t u) := by
  intro m rest hm hf he
  have hf' := Nat.le_trans hf hl
  rw [List.append_assoc, List.cons_append]
  refine (ht m _ hm (Nat.le_trans hf' (precedence_le_leftLevel op)) (Nat.le_refl _)).trans ?_
  have hright : ∀ o, Agrees
      (f.readOn (m.hold o) (⟨.symbol (.binary op), span⟩ :: (us ++ rest)))
      (do
        let o ← settleOperand f op m.skip o
        let o' ← u.within f (m.skip || decides op o)
        let n ← zeroIf m.skip (f.applyBinary op o o' span)
        f.readOn (m.hold (.value n)) rest) := by
    intro o
    rw [f.readOn_binary hf']
    refine Agrees.bind_right fun o => ?_
    refine Agrees.bind_pure (f.pushPending_agrees _ _) ?_
    refine (hu _ rest rfl (Nat.le_refl _)
      (he.mono (Nat.le_trans hl (precedence_le_rightLevel op)))).trans ?_
    refine Agrees.bind_right fun o' => Agrees.of_eq ?_
    rw [f.readOn_operator he (.binary op) hl rfl rfl]
    simp only [combine, Machine.hold, Machine.await, bind_assoc, pure_bind]
    -- Only an operator that may start the skipping ends it.
    cases op <;> simp [skipAfter, decides]
  refine (Agrees.bind_right hright).trans (Agrees.of_eq ?_)
  cases hs : m.skip
  · simp [Tree.within, operand_binary]
  · obtain ⟨o', ho⟩ := settleOperand_skipped f op t.residue
    simp [Tree.within, ho]
    rfl

theorem reads_of_parses {ts : List Token} {t : Tree} (h : Parses f.source level ts t) :
    f.Reads level ts t := by
  induction h with
  | constant => exact f.reads_atom fun m => by cases m.skip <;> rfl
  | reference => exact f.reads_atom fun m => by cases m.skip <;> rfl
  | nested =>
    refine f.reads_atom fun m => ?_
    cases hs : m.skip <;> simp [read, Tree.within, Tree.operand, Tree.residue, hs]
  | paren h ih => exact f.reads_paren ih
  | stepped h hn ih => exact f.reads_stepped hn ih
  | unary hs hl h ih => exact f.reads_unary hs hl ih
  | binary hl ht hu iht ihu => exact f.reads_binary hl iht ihu

theorem run_agrees {ts : List Token} {t : Tree} (hs : tokens f.source = ts.map .ok)
    (h : Parses f.source 0 ts t) : Agrees f.run (do let o ← t.operand f; pure (some o)) := by
  have hr := f.reads_of_parses h {} [] rfl (Nat.le_refl 0) trivial
  rw [List.append_nil] at hr
  rw [run, hs]
  exact hr

theorem integer_agrees {ts : List Token} {t : Tree} (hs : tokens f.source = ts.map .ok)
    (h : Parses f.source 0 ts t) : Agrees f.integer (t.integer f) := by
  refine ((f.run_agrees hs h).bind_left _).trans (.of_eq ?_)
  simp only [bind_assoc, pure_bind, Tree.integer]

end Frame

/-- The stacks compute the meaning of the tree: the same result or error, and the same state in the
end. As the state and the access to it are arbitrary, the state may record what it is asked for, so
that both also ask the same in the same order. -/
theorem integer_eq_tree_integer {σ ρ ω : Type} (access : Access σ ρ ω) (limits : Limits)
    {source : List Char} {ts : List Token} {t : Tree} (hs : tokens source = ts.map .ok)
    (h : Parses source 0 ts t) {s : σ}
    (ho : ¬ Overflows (frame access limits source).integer s) :
    outcome (frame access limits source).integer s =
      outcome (t.integer (frame access limits source)) s :=
  ((frame access limits source).integer_agrees hs h s).resolve_right ho

/-- `0&&x++||2**3` counts as `(0 && (x++)) || (2 ** 3)`, and the step is skipped. -/
theorem skipped_step_eq_tree_integer :
    let f := frame Bindings.access {} "0&&x++||2**3".toList
    outcome f.integer {} = outcome
      ((Tree.binary .logicalOr ⟨6, 8⟩
        (.binary .logicalAnd ⟨1, 3⟩ (.constant 0)
          (.stepped .increment ⟨4, 6⟩ (.reference "x" ⟨3, 4⟩)))
        (.binary (.compute .power) ⟨9, 11⟩ (.constant 2) (.constant 3))).integer f) {} := by
  have hand : Parses "0&&x++||2**3".toList BinaryOp.logicalOr.leftLevel
      ([⟨.constant 0, ⟨0, 1⟩⟩] ++ ⟨.symbol (.binary .logicalAnd), ⟨1, 3⟩⟩ ::
        ([⟨.variable "x", ⟨3, 4⟩⟩] ++ [⟨.symbol (.step .increment), ⟨4, 6⟩⟩])) _ :=
    .binary (by decide) .constant (.stepped .reference (by decide))
  have hpower : Parses "0&&x++||2**3".toList BinaryOp.logicalOr.rightLevel
      ([⟨.constant 2, ⟨8, 9⟩⟩] ++ ⟨.symbol (.binary (.compute .power)), ⟨9, 11⟩⟩ ::
        [⟨.constant 3, ⟨11, 12⟩⟩]) _ := .binary (by decide) .constant .constant
  refine integer_eq_tree_integer Bindings.access {} rfl (.binary (by decide) hand hpower) ?_
  rintro ⟨span, s', h⟩
  have hr : (outcome (frame Bindings.access {} "0&&x++||2**3".toList).integer {}).1 = .ok 1 := rfl
  rw [h] at hr
  cases hr

end ShellCore.Arith

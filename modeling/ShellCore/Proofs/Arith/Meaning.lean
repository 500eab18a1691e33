import ShellCore.Proofs.Arith.Grammar

/-! What a tree means: its evaluation without stacks. -/

namespace ShellCore.Arith

variable {σ ρ ω : Type} (f : Frame σ ρ ω)

/-- The value of a variable before and after a step. -/
def change (s : Step) (o : Operand) (span : Span) : EvalM σ ρ ω (Int64 × Int64) :=
  match o with
  | .value _ => fail .assignmentToValue span
  | .variable name place => do
    let old ← f.resolve name place
    let new ← orFault span (s.apply old)
    f.assign name new place
    return (old, new)

namespace Tree

/-- Evaluates a tree from left to right. A variable stays unread until its operator takes it. -/
def operand : Tree → EvalM σ ρ ω Operand
  | .constant n => return .value n
  | .reference name span => return .variable name span
  | .nested body opening span => do
    let n ← f.descend body span fun e => ⟨e.cause, e.span.shift (span.start + opening)⟩
    return .value n
  | .stepped s span t => do
    let o ← t.operand
    let (old, _) ← change f s o span
    return .value old
  | .unary op span t => do
    let o ← t.operand
    match op with
    | .plus => return .value (← f.valueOf o)
    | .negate => return .value (← orFault span (checked (-(← f.valueOf o).toInt)))
    | .logicalNot => return .value (ofTruth ((← f.valueOf o) == 0))
    | .complement => return .value (~~~(← f.valueOf o))
    | .step s =>
      let (_, new) ← change f s o span
      return .value new
  | .binary .comma _ l r => do
    let _ ← l.operand
    return .value (← f.valueOf (← r.operand))
  | .binary .logicalAnd _ l r => do
    -- The left operand is read before the right one starts, which may never be.
    let a ← f.valueOf (← l.operand)
    if a = 0 then return .value 0
    else return .value (ofTruth ((← f.valueOf (← r.operand)) != 0))
  | .binary .logicalOr _ l r => do
    let a ← f.valueOf (← l.operand)
    if a = 0 then return .value (ofTruth ((← f.valueOf (← r.operand)) != 0))
    else return .value 1
  | .binary (.assign compound) span l r => do
    let target ← l.operand
    let o ← r.operand
    match target with
    | .value _ => fail .assignmentToValue span
    | .variable name place =>
      let n ← f.valueOf o
      let n ← match compound with
        | none => pure n
        | some op => orFault span (op.apply (← f.resolve name place) n)
      f.assign name n place
      return .value n
  | .binary (.compute op) span l r => do
    let o ← l.operand
    let o' ← r.operand
    let a ← f.valueOf o
    let b ← f.valueOf o'
    return .value (← orFault span (op.apply a b))

/-- The integer that a tree stands for. -/
def integer (t : Tree) : EvalM σ ρ ω Int64 := do f.valueOf (← t.operand f)

/-- What is left on the stack of a tree that is read but not evaluated. -/
def residue : Tree → Operand
  | .constant n => .value n
  | .reference name span => .variable name span
  | _ => .value 0

/-- Evaluates the tree, unless it is skipped. -/
def within (skip : Bool) (t : Tree) : EvalM σ ρ ω Operand :=
  if skip then pure t.residue else t.operand f

end Tree

/-- A skipped computation yields zero at once. -/
def zeroIf (skip : Bool) (x : EvalM σ ρ ω Int64) : EvalM σ ρ ω Int64 := if skip then pure 0 else x

@[simp] theorem zeroIf_true (x : EvalM σ ρ ω Int64) : zeroIf true x = pure 0 := rfl

@[simp] theorem zeroIf_false (x : EvalM σ ρ ω Int64) : zeroIf false x = x := rfl

/-- Reads the left operand of an operator that may skip the right one. -/
def settleOperand (op : BinaryOp) (skip : Bool) (o : Operand) : EvalM σ ρ ω Operand :=
  match op with
  | .logicalAnd | .logicalOr => do
    let n ← zeroIf skip (f.valueOf o)
    return .value n
  | _ => return o

/-- Once read, the left operand alone decides the result. -/
def decides : BinaryOp → Operand → Bool
  | .logicalAnd, .value n => n == 0
  | .logicalOr, .value n => n != 0
  | _, _ => false

theorem settleOperand_skipped (op : BinaryOp) (o : Operand) :
    ∃ o', settleOperand f op true o = pure o' := by
  cases op <;> exact ⟨_, rfl⟩

theorem change_eq (s : Step) (o : Operand) (span : Span) :
    change f s o span = f.applyStep s o span := by
  cases o <;> rfl

theorem operand_stepped (s : Step) (span : Span) (t : Tree) :
    (Tree.stepped s span t).operand f =
      (do let o ← t.operand f; let p ← f.applyStep s o span; pure (.value p.1)) := by
  simp only [Tree.operand, change_eq]

theorem operand_unary (op : UnaryOp) (span : Span) (t : Tree) :
    (Tree.unary op span t).operand f =
      (do let o ← t.operand f; let n ← f.applyUnary op o span; pure (.value n)) := by
  cases op <;> simp [Tree.operand, Frame.applyUnary, change_eq]

/-- Skipping the right operand and looking at it later amounts to deciding at once. -/
theorem operand_binary (op : BinaryOp) (span : Span) (l r : Tree) :
    (Tree.binary op span l r).operand f = (do
      let o ← l.operand f
      let o ← settleOperand f op false o
      let o' ← r.within f (decides op o)
      let n ← f.applyBinary op o o' span
      pure (.value n)) := by
  cases op with
  | comma => simp [Tree.operand, settleOperand, decides, Tree.within, Frame.applyBinary]
  | assign compound =>
    simp only [Tree.operand, settleOperand, Tree.within, Frame.applyBinary, pure_bind]
    refine bind_congr fun o => bind_congr fun o' => ?_
    cases o with
    | value n => rfl
    | «variable» name place => cases compound <;> simp
  | logicalOr =>
    simp only [Tree.operand, settleOperand, decides, Tree.within, Frame.applyBinary, bind_assoc,
      pure_bind, zeroIf_false]
    refine bind_congr fun o => bind_congr fun a => ?_
    by_cases ha : a = 0 <;> simp [ha, Frame.valueOf]
  | logicalAnd =>
    simp only [Tree.operand, settleOperand, decides, Tree.within, Frame.applyBinary, bind_assoc,
      pure_bind, zeroIf_false]
    refine bind_congr fun o => bind_congr fun a => ?_
    by_cases ha : a = 0 <;> simp [ha, Frame.valueOf]
  | compute op => simp [Tree.operand, settleOperand, decides, Tree.within, Frame.applyBinary]

end ShellCore.Arith

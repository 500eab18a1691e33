import ShellCore.Arith.Expansion
import ShellCore.Proofs.Effect

/-! What an evaluation does to the state is what its access to the state does. -/

namespace ShellCore.Arith

variable {σ ρ ω α : Type} {R : σ → σ → Prop}

/-- Each use of the access that an evaluation makes before its end keeps the relation. -/
structure Access.KeepsEvaluating (R : σ → σ → Prop) (access : Access σ ρ ω) : Prop where
  get (name : String) (s : σ) : R s (access.get name s).2
  assign (name value : String) (span : Span) (s : σ) : R s (access.assign name value span s).2
  expandWord (text : String) (s : σ) : R s (access.expandWord text s).2

/-- Each use of the access keeps the relation. -/
structure Access.Keeps (R : σ → σ → Prop) (access : Access σ ρ ω) : Prop
    extends access.KeepsEvaluating R where
  substituteCommand (text : String) (s : σ) : R s (access.substituteCommand text s).2
  setExitStatus (status : ExitStatus) (s : σ) : R s (access.setExitStatus status s).2

/-- The access and the evaluation one level deeper keep the relation. -/
structure Frame.Keeps (R : σ → σ → Prop) (f : Frame σ ρ ω) : Prop where
  access : f.access.KeepsEvaluating R
  inner : ∀ evaluate, f.inner = some evaluate → ∀ body, Maintains R (evaluate body)

variable [Std.Refl R]

theorem maintains_fail (cause : Cause ρ ω) (span : Span) :
    Maintains R (fail cause span : EvalM σ ρ ω α) := .throw _

theorem maintains_orFault (span : Span) (r : Except Fault α) :
    Maintains R (orFault span r : EvalM σ ρ ω α) := by
  cases r with
  | ok a => exact .pure a
  | error e => exact maintains_fail _ span

namespace Frame

variable {f : Frame σ ρ ω}

theorem maintains_popOperand (m : Machine) (span : Span) :
    Maintains R (popOperand m span : EvalM σ ρ ω (Operand × Machine)) := by
  unfold popOperand
  split
  · exact .pure _
  · exact maintains_fail _ span

theorem maintains_pushOperand (m : Machine) (operand : Operand) (span : Span) :
    Maintains R (f.pushOperand m operand span) := by
  unfold pushOperand
  split
  · exact maintains_fail _ span
  · split
    · exact maintains_fail _ span
    · exact .pure _

theorem maintains_pushPending (m : Machine) (item : Pending) :
    Maintains R (f.pushPending m item) := by
  unfold pushPending
  split
  · exact maintains_fail _ _
  · exact .pure _

theorem maintains_readUnary (m : Machine) (s : Symbol) (span : Span) :
    Maintains R (f.readUnary m s span) := by
  unfold readUnary
  split
  · exact maintains_pushPending m _
  · split
    · exact maintains_pushPending m _
    · exact maintains_fail _ span

namespace Keeps

variable (h : f.Keeps R)

include h

theorem descend (body : List Char) (span : Span) (locate : Error ρ ω → Error ρ ω) :
    Maintains R (f.descend body span locate) := by
  unfold Frame.descend
  split
  · rename_i evaluate he
    exact (h.inner evaluate he body).adapt locate
  · exact maintains_fail _ span

variable [Trans R R R]

theorem get (name : String) (span : Span) : Maintains R (f.get name span) := by
  refine .bind (.lift (h.access.get name)) fun r => ?_
  cases r with
  | ok value => exact .pure value
  | error e => exact maintains_fail _ span

theorem assign (name : String) (n : Int64) (span : Span) :
    Maintains R (f.assign name n span) := by
  refine .bind (.lift (h.access.assign name _ span)) fun r => ?_
  cases r with
  | ok u => exact .pure ()
  | error e => exact maintains_fail _ span

theorem resolve (name : String) (span : Span) : Maintains R (f.resolve name span) := by
  refine .bind (h.get name span) fun r => ?_
  cases r with
  | none => exact .pure 0
  | some value =>
    dsimp only
    split
    · exact .pure 0
    · split
      · exact .pure _
      · exact h.descend _ span _

theorem valueOf (o : Operand) : Maintains R (f.valueOf o) := by
  cases o with
  | value n => exact .pure n
  | «variable» name span => exact h.resolve name span

theorem applyStep (s : Step) (o : Operand) (span : Span) : Maintains R (f.applyStep s o span) := by
  cases o with
  | value n => exact maintains_fail _ span
  | «variable» name place =>
    refine .bind (h.resolve name place) fun old => ?_
    refine .bind (maintains_orFault span _) fun new => ?_
    exact .bind (h.assign name new place) fun _ => .pure _

theorem applyUnary (op : UnaryOp) (o : Operand) (span : Span) :
    Maintains R (f.applyUnary op o span) := by
  have hv := h.valueOf o
  cases op with
  | plus => exact hv
  | negate => exact .bind hv fun n => maintains_orFault span _
  | logicalNot => exact .bind hv fun _ => .pure _
  | complement => exact .bind hv fun _ => .pure _
  | step s => exact .bind (h.applyStep s o span) fun _ => .pure _

theorem applyBinary (op : BinaryOp) (lhs rhs : Operand) (span : Span) :
    Maintains R (f.applyBinary op lhs rhs span) := by
  have hl := h.valueOf lhs
  have hr := h.valueOf rhs
  cases op with
  | comma => exact hr
  | logicalAnd =>
    refine .bind hl fun n => ?_
    split
    · exact .pure 0
    · exact .bind hr fun _ => .pure _
  | logicalOr =>
    refine .bind hl fun n => ?_
    split
    · exact .bind hr fun _ => .pure _
    · exact .pure 1
  | assign compound =>
    cases lhs with
    | value n => exact maintains_fail _ span
    | «variable» name place =>
      refine .bind hr fun n => ?_
      have hstore : ∀ n, Maintains R (do f.assign name n place; pure n) :=
        fun n => .bind (h.assign name n place) fun _ => .pure n
      cases compound with
      | none => exact hstore n
      | some op =>
        refine .bind (h.resolve name place) fun old => ?_
        exact .bind (maintains_orFault span _) fun n => hstore n
  | compute op =>
    exact .bind hl fun a => .bind hr fun b => maintains_orFault span _

theorem apply (op : Operator) (span : Span) (skip : Bool) (m : Machine) :
    Maintains R (f.apply op span skip m) := by
  have hp := maintains_popOperand (R := R) (ρ := ρ) (ω := ω)
  cases op with
  | unary op =>
    refine .bind (hp m span) fun a => ?_
    cases skip with
    | true => exact .pure _
    | false => exact .bind (h.applyUnary op a.1 span) fun _ => .pure _
  | binary op =>
    refine .bind (hp m span) fun a => .bind (hp a.2 span) fun b => ?_
    cases skip with
    | true => exact .pure _
    | false => exact .bind (h.applyBinary op b.1 a.1 span) fun _ => .pure _

theorem reduce (ready : Operator → Bool) (m : Machine) (pending : List Pending) :
    Maintains R (f.reduce ready m pending) := by
  induction pending generalizing m with
  | nil => exact .pure _
  | cons item rest ih =>
    cases item with
    | paren span skip => exact .pure _
    | operator op span skip =>
      unfold Frame.reduce
      split
      · exact .bind (h.apply op span skip m) fun m => ih m
      · exact .pure _

theorem resolveTop (m : Machine) (span : Span) : Maintains R (f.resolveTop m span) := by
  refine .bind (maintains_popOperand m span) fun a => ?_
  dsimp only
  split
  · exact .pure _
  · exact .bind (h.valueOf a.1) fun _ => .pure _

theorem settle (op : BinaryOp) (m : Machine) (span : Span) :
    Maintains R (f.settle op m span) := by
  cases op with
  | logicalAnd | logicalOr => exact .bind (h.resolveTop m span) fun _ => .pure _
  | comma | assign _ | compute _ => exact .pure _

theorem closeParen (m : Machine) (span : Span) : Maintains R (f.closeParen m span) := by
  unfold Frame.closeParen
  split
  · exact maintains_fail _ span
  · refine .bind (h.reduce _ m m.pending) fun m => ?_
    split
    · exact .pure _
    · exact maintains_fail _ span

theorem readBinary (m : Machine) (s : Symbol) (span : Span) :
    Maintains R (f.readBinary m s span) := by
  unfold Frame.readBinary
  split
  · refine .bind (h.reduce _ m m.pending) fun m => ?_
    refine .bind (h.settle _ m span) fun a => ?_
    exact .bind (maintains_pushPending a.2 _) fun _ => .pure _
  · exact maintains_fail _ span

theorem readPostfix (m : Machine) (s : Step) (span : Span) :
    Maintains R (f.readPostfix m s span) := by
  refine .bind (maintains_popOperand m span) fun a => ?_
  dsimp only
  split
  · exact .pure _
  · exact .bind (h.applyStep s a.1 span) fun _ => .pure _

theorem readSymbol (m : Machine) (s : Symbol) (span : Span) :
    Maintains R (f.readSymbol m s span) := by
  unfold Frame.readSymbol
  split
  · exact h.closeParen m span
  · split
    · exact maintains_readUnary m _ span
    · split
      · split
        · exact h.readPostfix m _ span
        · exact h.readBinary m _ span
      · exact h.readBinary m _ span

theorem read (m : Machine) (t : Token) : Maintains R (f.read m t) := by
  unfold Frame.read
  split
  · exact maintains_pushOperand m _ t.span
  · exact maintains_pushOperand m _ t.span
  · dsimp only
    split
    · exact maintains_pushOperand m _ t.span
    · exact .bind (h.descend _ t.span _) fun _ => maintains_pushOperand m _ t.span
  · exact h.readSymbol m _ t.span

theorem readAll (m : Machine) (readings : List Reading) : Maintains R (f.readAll m readings) := by
  induction readings generalizing m with
  | nil => exact .pure m
  | cons reading rest ih =>
    cases reading with
    | error e => exact maintains_fail _ e.2
    | ok t => exact .bind (h.read m t) fun m => ih m

theorem finish (m : Machine) : Maintains R (f.finish m) := by
  unfold Frame.finish
  split
  · split
    · exact .pure _
    · exact maintains_fail _ _
  · refine .bind (h.reduce _ m m.pending) fun m => ?_
    split
    · exact maintains_fail _ _
    · exact .pure _
    · exact maintains_fail _ _

theorem run : Maintains R f.run := .bind (h.readAll {} _) fun m => h.finish m

theorem integer : Maintains R f.integer := by
  refine .bind h.run fun r => ?_
  cases r with
  | none => exact .pure 0
  | some operand => exact h.valueOf operand

theorem value : Maintains R f.value := by
  refine .bind h.run fun r => ?_
  cases r with
  | none => exact .pure _
  | some operand =>
    cases operand with
    | value n => exact .pure _
    | «variable» name span =>
      refine .bind (h.get name span) fun value => ?_
      dsimp only
      split
      · exact .bind (h.resolve name span) fun _ => .pure _
      · exact .pure _

end Keeps

end Frame

namespace Access.KeepsEvaluating

variable [Trans R R R] {access : Access σ ρ ω} (h : access.KeepsEvaluating R)

include h

theorem evaluateNested (stackDepth levels : Nat) (evaluate : List Char → EvalM σ ρ ω Int64)
    (he : Arith.evaluateNested access stackDepth levels = some evaluate) (body : List Char) :
    Maintains R (evaluate body) := by
  induction levels generalizing evaluate body with
  | zero => cases he
  | succ levels ih =>
    cases he
    exact Frame.Keeps.integer ⟨h, fun evaluate he body => ih evaluate he body⟩

theorem frame (limits : Limits) (source : List Char) : (frame access limits source).Keeps R :=
  ⟨h, h.evaluateNested limits.stackDepth limits.nestingDepth⟩

theorem evaluateInteger (expression : String) :
    Maintains R (Arith.evaluateInteger access expression) :=
  (h.frame {} expression.toList).integer

theorem expandWords (body : List Char) : Maintains R (Arith.expandWords access body) := by
  unfold Arith.expandWords
  split
  · refine .bind (.lift (h.expandWord _)) fun r => ?_
    cases r with
    | some text => exact .pure _
    | none => exact .pure _
  · exact .pure _

end Access.KeepsEvaluating

theorem Access.Keeps.expand [Trans R R R] {access : Access σ ρ ω} (h : access.Keeps R)
    (expression : String) :
    Maintains R (Arith.expand access expression) := by
  refine .bind (h.expandWords _) fun source => ?_
  refine .bind (.lift (h.frame {} source).value) fun r => ?_
  cases r with
  | ok value => exact .bind (.lift (h.setExitStatus value.exitStatus)) fun _ => .pure value
  | error e =>
    dsimp only
    split
    · refine .bind (.lift (h.substituteCommand expression)) fun r => ?_
      split
      · exact .throw e
      · exact .pure _
      · exact maintains_fail _ _
    · exact .throw e

end ShellCore.Arith

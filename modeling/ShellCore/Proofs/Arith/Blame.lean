import ShellCore.Proofs.Arith.Meaning
import ShellCore.Proofs.Arith.Outcome

/-! Which causes the errors of an evaluation can have. -/

namespace ShellCore.Arith

variable {σ ρ ω α β : Type}

/-- The operands, operators and parentheses do not fit together. -/
def Cause.blamesOrder : Cause ρ ω → Bool
  | .missingOperand | .unmatchedParenthesis | .malformedExpression => true
  | _ => false

/-- The computation never finds fault with the order of the tokens. -/
def KeepsOrder (x : EvalM σ ρ ω α) : Prop :=
  ∀ s e s', outcome x s = (.error e, s') → e.cause.blamesOrder = false

namespace KeepsOrder

variable {x : EvalM σ ρ ω α} {k : α → EvalM σ ρ ω β}

theorem pure (a : α) : KeepsOrder (Pure.pure a : EvalM σ ρ ω α) := by
  intro s e s' h
  simp at h

theorem lift (x : StateM σ α) : KeepsOrder (liftM x : EvalM σ ρ ω α) := by
  intro s e s' h
  have hx : outcome (liftM x : EvalM σ ρ ω α) s = (.ok (x s).1, (x s).2) := rfl
  rw [hx] at h
  simp at h

theorem fail {cause : Cause ρ ω} {span : Span} (h : cause.blamesOrder = false) :
    KeepsOrder (Arith.fail cause span : EvalM σ ρ ω α) := by
  intro s e s' he
  obtain ⟨rfl, rfl⟩ := by simpa using he
  exact h

theorem bind (hx : KeepsOrder x) (hk : ∀ a, KeepsOrder (k a)) : KeepsOrder (x >>= k) := by
  intro s e s' h
  rw [outcome_bind] at h
  rcases ho : outcome x s with ⟨r, t⟩
  rw [ho] at h
  cases r with
  | error e' =>
    obtain ⟨rfl, rfl⟩ := by simpa using h
    exact hx s _ _ ho
  | ok a => exact hk a t e s' h

theorem adapt {locate : Error ρ ω → Error ρ ω} (h : ∀ e, (locate e).cause.blamesOrder = false) :
    KeepsOrder (ExceptT.adapt locate x) := by
  intro s e s' he
  rw [outcome_adapt] at he
  rcases ho : (outcome x s).1 with e' | a
  · rw [ho] at he
    cases he
    exact h e'
  · rw [ho] at he
    cases he

end KeepsOrder

namespace Frame

variable (f : Frame σ ρ ω)

theorem keepsOrder_get (name : String) (span : Span) : KeepsOrder (f.get name span) := by
  refine .bind (.lift _) fun r => ?_
  cases r with
  | ok value => exact .pure value
  | error e => exact .fail rfl

theorem keepsOrder_assign (name : String) (n : Int64) (span : Span) :
    KeepsOrder (f.assign name n span) := by
  refine .bind (.lift _) fun r => ?_
  cases r with
  | ok u => exact .pure ()
  | error e => exact .fail rfl

/-- What is wrong with the text of a variable is said of the variable. -/
theorem blamesOrder_blameVariable (text : List Char) (span : Span) (e : Error ρ ω) :
    (blameVariable text span e).cause.blamesOrder = false := by
  unfold blameVariable
  cases hs : e.cause <;> simp [Cause.isSyntax, Cause.blamesOrder]

theorem keepsOrder_resolve (name : String) (span : Span) : KeepsOrder (f.resolve name span) := by
  refine .bind (f.keepsOrder_get name span) fun r => ?_
  cases r with
  | none => exact .pure 0
  | some value =>
    dsimp only
    split
    · exact .pure 0
    · split
      · exact .pure _
      · unfold descend
        split
        · exact .adapt (blamesOrder_blameVariable _ span)
        · exact .fail rfl

theorem keepsOrder_valueOf (o : Operand) : KeepsOrder (f.valueOf o) := by
  cases o with
  | value n => exact .pure n
  | «variable» name span => exact f.keepsOrder_resolve name span

theorem keepsOrder_orFault (span : Span) (r : Except Fault α) :
    KeepsOrder (orFault span r : EvalM σ ρ ω α) := by
  cases r with
  | ok a => exact .pure a
  | error e => exact .fail rfl

theorem keepsOrder_change (s : Step) (o : Operand) (span : Span) :
    KeepsOrder (change f s o span) := by
  cases o with
  | value n => exact .fail rfl
  | «variable» name place =>
    refine .bind (f.keepsOrder_resolve name place) fun old => ?_
    refine .bind (keepsOrder_orFault span _) fun new => ?_
    exact .bind (f.keepsOrder_assign name new place) fun _ => .pure _

end Frame

/-- The token holds an expression of its own. -/
def TokenValue.isNested : TokenValue → Bool
  | .nested _ _ => true
  | _ => false

namespace Tree

variable (f : Frame σ ρ ω)

/-- No part of the tree is an expression in brackets of its own. -/
def isFlat : Tree → Bool
  | .nested _ _ _ => false
  | .constant _ | .reference _ _ => true
  | .unary _ _ t | .stepped _ _ t => t.isFlat
  | .binary _ _ l r => l.isFlat && r.isFlat

theorem isFlat_of_parses {source : List Char} {level : Nat} {ts : List Token} {t : Tree}
    (h : Parses source level ts t) (hn : ∀ a ∈ ts, a.value.isNested = false) : t.isFlat := by
  induction h with
  | constant => rfl
  | reference => rfl
  | nested => simp [TokenValue.isNested] at hn
  | paren h ih => exact ih fun a ha => hn a (by simp [ha])
  | stepped h _ ih => exact ih fun a ha => hn a (by simp [ha])
  | unary _ _ h ih => exact ih fun a ha => hn a (by simp [ha])
  | binary _ ht hu iht ihu =>
    have ht' := iht fun a ha => hn a (by simp [ha])
    have hu' := ihu fun a ha => hn a (by simp [ha])
    simp [isFlat, ht', hu']

theorem keepsOrder_operand {t : Tree} (h : t.isFlat) : KeepsOrder (t.operand f) := by
  induction t with
  | constant n => exact .pure _
  | reference name span => exact .pure _
  | nested => simp [isFlat] at h
  | unary op span t ih =>
    refine .bind (ih h) fun o => ?_
    have hv := f.keepsOrder_valueOf o
    cases op with
    | plus => exact .bind hv fun _ => .pure _
    | negate => exact .bind hv fun n => .bind (Frame.keepsOrder_orFault span _) fun _ => .pure _
    | logicalNot => exact .bind hv fun _ => .pure _
    | complement => exact .bind hv fun _ => .pure _
    | step s => exact .bind (f.keepsOrder_change s o span) fun _ => .pure _
  | stepped s span t ih =>
    exact .bind (ih h) fun o => .bind (f.keepsOrder_change s o span) fun _ => .pure _
  | binary op span l r ihl ihr =>
    simp only [isFlat, Bool.and_eq_true] at h
    have hl := ihl h.1
    have hr := ihr h.2
    cases op with
    | comma =>
      exact .bind hl fun _ => .bind hr fun o => .bind (f.keepsOrder_valueOf o) fun _ => .pure _
    | assign compound =>
      refine .bind hl fun target => .bind hr fun o => ?_
      cases target with
      | value n => exact .fail rfl
      | «variable» name place =>
        refine .bind (f.keepsOrder_valueOf o) fun n => ?_
        have hstore : ∀ n, KeepsOrder (do f.assign name n place; return Operand.value n) :=
          fun n => .bind (f.keepsOrder_assign name n place) fun _ => .pure _
        cases compound with
        | none => exact hstore n
        | some op =>
          refine .bind (f.keepsOrder_resolve name place) fun old => ?_
          exact .bind (Frame.keepsOrder_orFault span _) fun n => hstore n
    | logicalOr =>
      refine .bind hl fun o => .bind (f.keepsOrder_valueOf o) fun a => ?_
      split
      · exact .bind hr fun o => .bind (f.keepsOrder_valueOf o) fun _ => .pure _
      · exact .pure _
    | logicalAnd =>
      refine .bind hl fun o => .bind (f.keepsOrder_valueOf o) fun a => ?_
      split
      · exact .pure _
      · exact .bind hr fun o => .bind (f.keepsOrder_valueOf o) fun _ => .pure _
    | compute op =>
      refine .bind hl fun o => .bind hr fun o' => ?_
      refine .bind (f.keepsOrder_valueOf o) fun a => .bind (f.keepsOrder_valueOf o') fun b => ?_
      exact .bind (Frame.keepsOrder_orFault span _) fun _ => .pure _

theorem keepsOrder_integer {t : Tree} (h : t.isFlat) : KeepsOrder (t.integer f) :=
  .bind (keepsOrder_operand f h) fun o => f.keepsOrder_valueOf o

end Tree

end ShellCore.Arith

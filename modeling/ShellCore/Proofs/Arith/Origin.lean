import ShellCore.Proofs.Arith.Balance
import ShellCore.Proofs.Arith.Noting
import ShellCore.Proofs.Arith.Placement
import ShellCore.Proofs.Arith.Termination

/-! What an evaluation holds comes from its text, and so do its errors. -/

namespace ShellCore.Arith

open Text

variable {σ ρ ω α : Type}

/-- A token of the source stands there, or what is wrong with its text. -/
def IsPlace (source : List Char) (span : Span) : Prop := ∃ r ∈ tokens source, r.span = span

/-- If the operand is a variable, then it stands for one of the source. -/
def Operand.From (source : List Char) : Operand → Prop
  | .value _ => True
  | .variable name span => .ok ⟨.variable name, span⟩ ∈ tokens source

/-- All that waits comes from the source. -/
structure Point.From (source : List Char) (p : Point) : Prop where
  pending : ∀ item ∈ p.machine.pending, IsPlace source item.span
  operands : ∀ o ∈ p.machine.operands, o.From source
  unread : ∀ r ∈ p.unread, r ∈ tokens source

/-- In a quiet state an error is as said if it points at a token, and what the surroundings and
nested expressions do leads to quiet states or errors as said. -/
structure Frame.Blames (f : Frame σ ρ ω) (quiet : σ → Prop) (error : Error ρ ω → σ → Prop) :
    Prop where
  own {span : Span} (hp : IsPlace f.source span) (c : Cause ρ ω) (s : σ) (hs : quiet s) :
    error ⟨c, span⟩ s
  get {name : String} {span : Span} (h : .ok ⟨.variable name, span⟩ ∈ tokens f.source) :
    Meets quiet (fun value s => isExpression (value.getD "") = false → quiet s) error
      (f.get name span)
  resolve {name : String} {span : Span} (h : .ok ⟨.variable name, span⟩ ∈ tokens f.source) :
    Meets quiet (fun _ => quiet) error (f.resolve name span)
  assign {name : String} {span : Span} (h : .ok ⟨.variable name, span⟩ ∈ tokens f.source)
    (n : Int64) : Meets quiet (fun _ => quiet) error (f.assign name n span)
  descend {body : List Char} {opening : Nat} {place : Span}
    (h : .ok ⟨.nested body opening, place⟩ ∈ tokens f.source) :
    Meets quiet (fun _ => quiet) error
      (f.descend body place fun e => ⟨e.cause, e.span.shift (place.start + opening)⟩)

namespace Frame.Blames

variable {f : Frame σ ρ ω} {quiet : σ → Prop} {error : Error ρ ω → σ → Prop} {o o' : Operand}
  {span : Span} {p p' : Point} {m : Machine}

section Operators

variable (h : f.Blames quiet error)

include h

theorem orFault (hp : IsPlace f.source span) (x : Except Fault α) :
    Meets quiet (fun _ => quiet) error (Arith.orFault span x : EvalM σ ρ ω α) := by
  cases x with
  | ok a => exact .pure fun _ hs => hs
  | error fault => exact .fail (h.own hp (.fault fault))

theorem valueOf (ho : o.From f.source) : Meets quiet (fun _ => quiet) error (f.valueOf o) := by
  cases o with
  | value n => exact .pure fun _ hs => hs
  | «variable» name place => exact h.resolve ho

theorem applyStep (s : Step) (ho : o.From f.source) (hp : IsPlace f.source span) :
    Meets quiet (fun _ => quiet) error (f.applyStep s o span) := by
  cases o with
  | value n => exact .fail (h.own hp .assignmentToValue)
  | «variable» name place =>
    refine (h.resolve ho).bind fun old => (h.orFault hp _).bind fun new => ?_
    exact (h.assign ho new).bind fun _ => .pure fun _ hs => hs

theorem applyUnary (op : UnaryOp) (ho : o.From f.source) (hp : IsPlace f.source span) :
    Meets quiet (fun _ => quiet) error (f.applyUnary op o span) := by
  have hv := h.valueOf ho
  cases op with
  | plus => exact hv
  | negate => exact hv.bind fun _ => h.orFault hp _
  | logicalNot | complement => exact hv.bind fun _ => .pure fun _ hs => hs
  | step s => exact (h.applyStep s ho hp).bind fun _ => .pure fun _ hs => hs

theorem applyBinary (op : BinaryOp) (ho : o.From f.source) (ho' : o'.From f.source)
    (hp : IsPlace f.source span) :
    Meets quiet (fun _ => quiet) error (f.applyBinary op o o' span) := by
  have hv := h.valueOf ho
  have hv' := h.valueOf ho'
  cases op with
  | comma => exact hv'
  | logicalAnd | logicalOr =>
    refine hv.bind fun n => ?_
    split
    all_goals first
      | exact .pure fun _ hs => hs
      | exact hv'.bind fun _ => .pure fun _ hs => hs
  | assign compound =>
    cases o with
    | value n => exact .fail (h.own hp .assignmentToValue)
    | «variable» name place =>
      refine hv'.bind fun n => ?_
      have hstore : ∀ n, Meets quiet (fun _ => quiet) error (do f.assign name n place; return n) :=
        fun n => (h.assign ho n).bind fun _ => .pure fun _ hs => hs
      cases compound with
      | none => exact hstore n
      | some op => exact (h.resolve ho).bind fun _ => (h.orFault hp _).bind fun n => hstore n
  | compute op => exact hv.bind fun _ => hv'.bind fun _ => h.orFault hp _

omit h in
theorem zeroIf {x : EvalM σ ρ ω Int64} (hx : Meets quiet (fun _ => quiet) error x) (skip : Bool) :
    Meets quiet (fun _ => quiet) error (Arith.zeroIf skip x) := by
  cases skip with
  | true => exact .pure fun _ hs => hs
  | false => exact hx

theorem combine (op : Operator) (hp : IsPlace f.source span) (skip : Bool)
    {operands : List Operand} (ho : ∀ o ∈ operands, o.From f.source) :
    Meets quiet (fun operands s => quiet s ∧ ∀ o ∈ operands, o.From f.source) error
      (f.combine op span skip operands) := by
  have hpush : ∀ (n : Int64) {rest : List Operand}, (∀ o ∈ rest, o.From f.source) →
      ∀ o ∈ Operand.value n :: rest, o.From f.source :=
    fun n rest hr => List.forall_mem_cons.mpr ⟨trivial, hr⟩
  unfold Frame.combine
  split
  · obtain ⟨ho, hr⟩ := List.forall_mem_cons.mp ho
    exact (zeroIf (h.applyUnary _ ho hp) skip).bind fun n => .pure fun _ hs => ⟨hs, hpush n hr⟩
  · obtain ⟨ho', hr⟩ := List.forall_mem_cons.mp ho
    obtain ⟨ho, hr⟩ := List.forall_mem_cons.mp hr
    exact (zeroIf (h.applyBinary _ ho ho' hp) skip).bind fun n =>
      .pure fun _ hs => ⟨hs, hpush n hr⟩
  · exact .fail (h.own hp .missingOperand)

theorem settleOperand (op : BinaryOp) (skip : Bool) (ho : o.From f.source) :
    Meets quiet (fun o s => quiet s ∧ o.From f.source) error
      (Arith.settleOperand f op skip o) := by
  cases op with
  | logicalAnd | logicalOr =>
    exact (zeroIf (h.valueOf ho) skip).bind fun n => .pure fun _ hs => ⟨hs, trivial⟩
  | _ => exact .pure fun _ hs => ⟨hs, ho⟩

theorem pushOperand (hp : IsPlace f.source span) (m : Machine) (o : Operand) :
    Meets quiet (fun m' s => quiet s ∧ m' = m.hold o) error (f.pushOperand m o span) := by
  unfold Frame.pushOperand
  split
  · exact .fail (h.own hp .malformedExpression)
  · split
    · exact .fail (h.own hp .stackOverflow)
    · exact .pure fun _ hs => ⟨hs, rfl⟩

theorem pushPending {item : Pending} (hp : IsPlace f.source item.span) (m : Machine) :
    Meets quiet (fun m' s => quiet s ∧ m' = m.await item) error (f.pushPending m item) := by
  unfold Frame.pushPending
  split
  · exact .fail (h.own hp .stackOverflow)
  · exact .pure fun _ hs => ⟨hs, rfl⟩

end Operators

section Reading

variable (h : f.Blames quiet error) {t : Token} {s : Symbol} {unread : List Reading}
  (hf : p.From f.source) (hu : p.unread = .ok t :: unread)

include hf hu

theorem from_unread : .ok t ∈ tokens f.source ∧ ∀ r ∈ unread, r ∈ tokens f.source := by
  have hall := hf.unread
  rw [hu] at hall
  exact List.forall_mem_cons.mp hall

theorem isPlace_unread : IsPlace f.source t.span := ⟨_, (from_unread hf hu).1, rfl⟩

include h

theorem readOperand (ho : o.From f.source) :
    Meets quiet (fun m s => quiet s ∧ (Point.mk m unread).From f.source) error
      (f.pushOperand p.machine o t.span) := by
  refine (h.pushOperand (isPlace_unread hf hu) p.machine o).mono ?_
  rintro _ s ⟨hs, rfl⟩
  exact ⟨hs, hf.pending, List.forall_mem_cons.mpr ⟨ho, hf.operands⟩, (from_unread hf hu).2⟩

theorem await {item : Pending} (hi : item.span = t.span) {operands : List Operand}
    (ho : ∀ o ∈ operands, o.From f.source) :
    Meets quiet
      (fun m s => quiet s ∧ ∀ skip, (Point.mk { m with skip } unread).From f.source) error
      (f.pushPending { p.machine with operands } item) := by
  have hp : IsPlace f.source item.span := hi ▸ isPlace_unread hf hu
  refine (h.pushPending hp _).mono ?_
  rintro _ s ⟨hs, rfl⟩
  exact ⟨hs, fun skip =>
    ⟨List.forall_mem_cons.mpr ⟨hp, hf.pending⟩, ho, (from_unread hf hu).2⟩⟩

theorem readUnary (s : Symbol) :
    Meets quiet (fun m s => quiet s ∧ (Point.mk m unread).From f.source) error
      (f.readUnary p.machine s t.span) := by
  have hpush : ∀ item : Pending, item.span = t.span →
      Meets quiet (fun m s => quiet s ∧ (Point.mk m unread).From f.source) error
        (f.pushPending p.machine item) := fun item hi =>
    (h.await hf hu hi hf.operands).mono fun m s hs => ⟨hs.1, hs.2 m.skip⟩
  unfold Frame.readUnary
  split
  · exact hpush _ rfl
  · split
    · exact hpush _ rfl
    · exact .fail (h.own (isPlace_unread hf hu) .missingOperand)

theorem readPostfix (step : Step) (he : p.machine.operands ≠ []) :
    Meets quiet (fun m s => quiet s ∧ (Point.mk m unread).From f.source) error
      (f.readPostfix p.machine step t.span) := by
  obtain ⟨o, operands, ho⟩ := List.exists_cons_of_ne_nil he
  have hfrom := hf.operands
  rw [ho] at hfrom
  obtain ⟨hfrom, hrest⟩ := List.forall_mem_cons.mp hfrom
  have hpush : ∀ n : Int64, (Point.mk
      { p.machine with operands := .value n :: operands } unread).From f.source := fun n =>
    ⟨hf.pending, List.forall_mem_cons.mpr ⟨trivial, hrest⟩, (from_unread hf hu).2⟩
  rw [Frame.readPostfix, popOperand, ho, pure_bind]
  dsimp only
  split
  · exact .pure fun _ hs => ⟨hs, hpush 0⟩
  · refine (h.applyStep step hfrom (isPlace_unread hf hu)).bind fun r => ?_
    rw [pure_bind]
    exact .pure fun _ hs => ⟨hs, hpush r.1⟩

variable (hd : p.due? = none)

include hd

theorem closeParen (hv : t.value = .symbol .closeParen) :
    Meets quiet (fun m s => quiet s ∧ (Point.mk m unread).From f.source) error
      (f.closeParen p.machine t.span) := by
  have hplace := isPlace_unread hf hu
  cases he : p.machine.expectsOperand with
  | true =>
    rw [Frame.closeParen, he, if_pos rfl]
    exact .fail (h.own hplace .missingOperand)
  | false =>
    have hu' : p.unread = .ok ⟨.symbol .closeParen, t.span⟩ :: unread := by rw [hu, ← hv]
    have hpending := hf.pending
    rw [closeParen_eq _ hd hu' he]
    split
    · next hp =>
      rw [hp] at hpending
      exact .pure fun _ hs =>
        ⟨hs, (List.forall_mem_cons.mp hpending).2, hf.operands, (from_unread hf hu).2⟩
    · exact .fail (h.own hplace .unmatchedParenthesis)

theorem readBinary {s : Symbol} (hv : t.value = .symbol s)
    (he : p.machine.expectsOperand = false) (hne : p.machine.operands ≠ []) :
    Meets quiet (fun m s => quiet s ∧ (Point.mk m unread).From f.source) error
      (f.readBinary p.machine s t.span) := by
  obtain ⟨o, operands, ho⟩ := List.exists_cons_of_ne_nil hne
  have hfrom := hf.operands
  rw [ho] at hfrom
  obtain ⟨hfrom, hrest⟩ := List.forall_mem_cons.mp hfrom
  cases hs : s.asBinary? with
  | none =>
    rw [Frame.readBinary, hs]
    exact .fail (h.own (isPlace_unread hf hu) .malformedExpression)
  | some op =>
    obtain rfl := Symbol.eq_of_asBinary? hs
    have hu' : p.unread = .ok ⟨.symbol (.binary op), t.span⟩ :: unread := by rw [hu, ← hv]
    rw [readBinary_eq _ hd hu' he ho]
    refine (h.settleOperand op p.machine.skip hfrom).bind_and fun o' ho' => ?_
    have hi : (Pending.operator (.binary op) t.span p.machine.skip).span = t.span := rfl
    have hpush := h.await hf hu hi (List.forall_mem_cons.mpr ⟨ho', hrest⟩)
    exact hpush.bind fun m => .pure fun _ hs => ⟨hs.1, hs.2 _⟩

theorem read (hne : p.machine.expectsOperand = false → p.machine.operands ≠ []) :
    Meets quiet (fun m s => quiet s ∧ (Point.mk m unread).From f.source) error
      (f.read p.machine t) := by
  have ht := (from_unread hf hu).1
  unfold Frame.read
  split
  · exact h.readOperand hf hu trivial
  · next name hv =>
    refine h.readOperand hf hu (show .ok ⟨.variable name, t.span⟩ ∈ tokens f.source from ?_)
    rwa [← hv]
  · next body opening hv =>
    have hnested : .ok ⟨.nested body opening, t.span⟩ ∈ tokens f.source := by rwa [← hv]
    dsimp only
    split
    · rw [pure_bind]
      exact h.readOperand hf hu trivial
    · exact (h.descend hnested).bind fun n => h.readOperand hf hu trivial
  · next s hv =>
    unfold Frame.readSymbol
    split
    · exact h.closeParen hf hu hd hv
    · split
      · exact h.readUnary hf hu s
      · next he =>
        have he : p.machine.expectsOperand = false := by simpa using he
        split
        · split
          · exact h.readPostfix hf hu _ (hne he)
          · exact h.readBinary hf hu hd hv he (hne he)
        · exact h.readBinary hf hu hd hv he (hne he)

end Reading

section Run

variable (h : f.Blames quiet error)

include h

/-- What a move leaves comes from the source, and so do errors. -/
theorem move (hf : p.From f.source) (hl : p.machine.Layered) (hb : p.machine.Balanced) :
    Meets quiet
      (fun r s => quiet s ∧ r.elim (Point.From f.source) fun o => ∀ x ∈ o, x.From f.source) error
      (f.move p) := by
  unfold Frame.move
  split
  · next op span skip pending hd =>
    obtain ⟨-, hp, -⟩ := Point.due?_eq_some_iff.mp hd
    have hpending := hf.pending
    rw [hp] at hpending
    obtain ⟨hplace, hrest⟩ := List.forall_mem_cons.mp hpending
    rw [apply_eq]
    simp only [bind_assoc, pure_bind]
    exact (h.combine op hplace skip hf.operands).bind_and fun operands ho =>
      .pure fun _ hs => ⟨hs, hrest, ho, hf.unread⟩
  · next hd =>
    split
    · next hu =>
      rcases Frame.finish_eq (f := f) hd hu hb with ⟨-, o, ho, hmem⟩ | ⟨item, hi, c, hc⟩
      · rw [ho, pure_bind]
        exact .pure fun _ hs => ⟨hs, fun x hx => hf.operands x (hmem x hx)⟩
      · rw [hc, fail_bind]
        exact .fail (h.own (hf.pending item hi) c)
    · next e span rest hu =>
      have hr : .error (e, span) ∈ tokens f.source := hf.unread _ (by simp [hu])
      exact .fail (h.own ⟨_, hr, rfl⟩ (.token e))
    · next t unread hu =>
      exact (h.read hf hu hd hl.1).bind_and fun m hm => .pure fun _ hs => ⟨hs, hm⟩

theorem complete {p : Point} (hf : p.From f.source) (hl : p.machine.Layered)
    (hb : p.machine.Balanced) :
    Meets quiet (fun o s => quiet s ∧ ∀ x ∈ o, x.From f.source) error (f.complete p) := by
  intro s hs
  have hm := h.move hf hl hb s hs
  rw [complete_eq_move, outcome_bind]
  rcases ho : outcome (f.move p) s with ⟨e | p' | o, s'⟩
  · rw [ho] at hm
    exact hm
  · rw [ho] at hm
    have hmoves := f.moves_of_yields hl.1 ⟨s, s', ho⟩
    have hlt := hmoves.rank_lt
    exact complete hm.2 (hmoves.layered hl) (hmoves.balanced hb) s' hm.1
  · rw [ho] at hm
    exact hm
termination_by p.rank

theorem run :
    Meets quiet (fun o s => quiet s ∧ ∀ x ∈ o, x.From f.source) error f.run := by
  have hf : (Point.mk {} (tokens f.source)).From f.source := ⟨nofun, nofun, fun _ hr => hr⟩
  exact h.complete hf ⟨by simp, .empty⟩ rfl

theorem integer : Meets quiet (fun _ => quiet) error f.integer := by
  refine h.run.bind_and fun o ho => ?_
  cases o with
  | none => exact .pure fun _ hs => hs
  | some o => exact h.valueOf (ho o rfl)

/-- A value that is not a number is the result without being evaluated, so only what holds of a
variable that has been read holds in the end. -/
theorem value_of_read {read : σ → Prop} (hq : ∀ s, quiet s → read s)
    (hr : ∀ {name span}, .ok ⟨.variable name, span⟩ ∈ tokens f.source →
      Meets quiet (fun _ => read) error (f.get name span)) :
    Meets quiet (fun _ => read) error f.value := by
  refine h.run.bind_and fun o ho => ?_
  rcases o with - | n | ⟨name, span⟩
  · exact .pure hq
  · exact .pure hq
  · have ho := ho _ rfl
    refine ((h.get ho).and (hr ho)).bind fun value => ?_
    dsimp only
    split
    · next hv =>
      have hn : isExpression (value.getD "") = false := by
        simp only [isExpression, Bool.and_eq_false_iff, Bool.not_eq_false']
        rcases Bool.or_eq_true_iff.mp hv with he | hc
        · exact .inl he
        · exact .inr (Option.isNone_eq_false_iff.mpr hc)
      intro s hs
      have hresolve : Meets quiet (fun _ => read) error
          (do return Value.integer (← f.resolve name span)) :=
        (h.resolve ho).bind fun _ => .pure hq
      exact hresolve s (hs.1 hn)
    · exact .pure fun _ hs => hs.2

theorem value : Meets quiet (fun _ _ => True) error f.value :=
  h.value_of_read (fun _ _ => trivial) fun ho => (h.get ho).mono fun _ _ _ => trivial

end Run

end Frame.Blames

end ShellCore.Arith

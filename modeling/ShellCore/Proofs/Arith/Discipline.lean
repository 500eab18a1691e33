import ShellCore.Proofs.Arith.Balance
import ShellCore.Proofs.Arith.Placement
import ShellCore.Proofs.Arith.Recording
import ShellCore.Proofs.Arith.Watched

/-! What should never happen while an expression is evaluated never does: the stacks always hold
what the operators need. -/

namespace ShellCore.Arith

open Text Comparison

variable {σ ρ ω α : Type} {f : Frame σ ρ ω} {g : Frame σ (ρ ⊕ Breach) ω} {t : Tag} {op : Operator}
  {o o' : Operand} {span : Span} {skip : Bool} {depth : Nat} {m : Machine} {c : Stacks}
  {l : List Char} {s : Symbol}

/-- The state of reading after a token: the operands are what the pending operators need, and both
stacks are within their bound. -/
structure Machine.Disciplined (stackDepth : Nat) (m : Machine) : Prop where
  balanced : m.Balanced
  operands_le : m.operands.length ≤ stackDepth
  pending_le : m.pending.length ≤ stackDepth

/-- The item of the one stack stands for that of the other one. -/
inductive Matches : Pending → Tagged → Prop
  | paren (span : Span) (skip : Bool) : Matches (.paren span skip) ⟨.openParen, span, skip⟩
  | operator {t : Tag} {op : Operator} (h : t.operator? = some op) (span : Span) (skip : Bool) :
    Matches (.operator op span skip) ⟨t, span, skip⟩

/-- The stacks hold the same as the machine, which is disciplined. -/
structure Mirrors (depth : Nat) (m : Machine) (c : Stacks) : Prop where
  disciplined : m.Disciplined depth
  waiting : List.Forall₂ Matches m.pending c.waiting
  operands : m.operands = c.operands
  skip : m.skip = c.skip
  expectsOperand : m.expectsOperand = c.expectsOperand

theorem mirrors_start (depth : Nat) : Mirrors depth {} {} :=
  ⟨⟨rfl, Nat.zero_le _, Nat.zero_le _⟩, .nil, rfl, rfl, rfl⟩

/-- An evaluation and the one that is watched. -/
def watching : Comparison σ σ ρ (ρ ⊕ Breach) ω ω where
  states := Eq
  spans := Eq
  unreadable := .inl
  unassignable := id
  excused _ := False
  spans_refl := Eq.refl
  spans_shift := @shift_congr
  not_isSyntax := not_isSyntax_of_false

theorem accesses_watched (a : Access σ ρ ω) : watching.Accesses a a.watched where
  get := by
    rintro name s _ rfl
    exact ⟨rfl, rfl⟩
  assign := by
    rintro name value span _ rfl s _ rfl
    exact ⟨(mapError_id _).symm, rfl⟩
  expandWord := by
    rintro text s _ rfl
    exact ⟨rfl, rfl⟩
  substituteCommand := by
    rintro text s _ rfl
    exact ⟨rfl, rfl⟩
  setExitStatus := by
    rintro status s _ rfl
    rfl

theorem operands_refl (o : Operand) : (watching (σ := σ) (ρ := ρ) (ω := ω)).Operands o o := by
  cases o with
  | value n => exact .value n
  | «variable» name span => exact .variable name rfl

/-- The same expression in surroundings with and without the watch. -/
structure Watches (f : Frame σ ρ ω) (g : Frame σ (ρ ⊕ Breach) ω) : Prop extends
    watching.Frames f g where
  source : g.source = f.source

theorem Watches.stackDepth (h : Watches f g) : g.stackDepth = f.stackDepth := by
  rcases h.depth with hd | ⟨hx, -⟩
  · exact hd.symm
  · exact hx.elim

theorem Tag.row_eq (h : t.operator? = some op) (span : Span) :
    ∃ row, row.Describes op ∧ (t.row span : EvalM σ (ρ ⊕ Breach) ω Row) = pure row := by
  obtain ⟨row, hrow, hd⟩ := t.exists_row h
  exact ⟨row, hd, by rw [Tag.row, hrow]⟩

theorem Tag.ne_openParen (h : t.operator? = some op) : t ≠ .openParen := by
  rintro rfl
  cases h

namespace Watched

theorem applyUnary_eq {op : UnaryOp} (h : t.operator? = some (.unary op)) :
    applyUnary g t o span skip = zeroIf skip (g.applyUnary op o span) := by
  cases skip with
  | true => rfl
  | false => cases t <;> cases h <;> rfl

theorem assign_eq {compound : Option Operation}
    (h : t.compoundBase?.map Tag.operation? = compound.map some) :
    assign g t o o' span = g.applyBinary (.assign compound) o o' span := by
  cases o with
  | value n => rfl
  | «variable» name place =>
    cases compound with
    | none =>
      have hbase : t.compoundBase? = none := by simpa using h
      simp only [assign, Frame.applyBinary, hbase]
    | some op =>
      obtain ⟨base, hbase, hop⟩ := Option.map_eq_some_iff.mp h
      simp only [assign, Frame.applyBinary, hbase, Tag.applyPure, hop]

theorem applyBinary_eq {op : BinaryOp} (h : t.operator? = some (.binary op)) :
    applyBinary g t o o' span skip = zeroIf skip (g.applyBinary op o o' span) := by
  obtain ⟨row, hd, hrow⟩ := t.row_eq (σ := σ) (ρ := ρ) (ω := ω) h span
  cases skip with
  | true => rfl
  | false =>
    cases op with
    | comma => cases t <;> cases h; rfl
    | logicalAnd => cases t <;> cases h; rfl
    | logicalOr => cases t <;> cases h; rfl
    | assign compound =>
      have hother : applyBinary g t o o' span false = applyOther g t o o' span := by
        cases t <;> cases h <;> rfl
      have hprecedence : row.precedence = 2 := hd.precedence
      rw [hother, applyOther, hrow, pure_bind, if_pos hprecedence]
      exact assign_eq (t.compoundBase?_of_assign h)
    | compute op =>
      have hother : applyBinary g t o o' span false = applyOther g t o o' span := by
        cases t <;> cases h <;> rfl
      have hprecedence : row.precedence ≠ 2 := by
        rw [hd.precedence]
        cases op <;> decide
      rw [hother, applyOther, hrow, pure_bind, if_neg hprecedence]
      simp only [Tag.applyPure, t.operation?_of_compute h]
      rfl

theorem skip_eq (h : t.operator? = some op) (skip : Bool) (m : Machine) :
    (if t = .logicalAnd ∨ t = .logicalOr then skip else m.skip) = Frame.skipAfter op skip m := by
  cases t <;> cases h <;> rfl

theorem apply_unary_eq {op : UnaryOp} {waiting : List Tagged} {operands : List Operand} {s e : Bool}
    (h : t.operator? = some (.unary op)) :
    apply g ⟨t, span, skip⟩ ⟨waiting, o :: operands, s, e⟩ = (do
      let n ← zeroIf skip (g.applyUnary op o span)
      pure ⟨waiting, .value n :: operands, s, e⟩) := by
  obtain ⟨row, hd, hrow⟩ := t.row_eq (σ := σ) (ρ := ρ) (ω := ω) h span
  have hskip := skip_eq h skip { skip := s }
  have harity : row.arity = .unary := hd.arity
  simp only [apply, if_neg (t.ne_openParen h), hrow, harity, popOperand, applyUnary_eq h, hskip,
    Frame.skipAfter, pure_bind]

theorem apply_binary_eq {op : BinaryOp} {waiting : List Tagged} {operands : List Operand}
    {s e : Bool} (h : t.operator? = some (.binary op)) :
    apply g ⟨t, span, skip⟩ ⟨waiting, o' :: o :: operands, s, e⟩ = (do
      let n ← zeroIf skip (g.applyBinary op o o' span)
      pure ⟨waiting, .value n :: operands,
        Frame.skipAfter (.binary op) skip { skip := s }, e⟩) := by
  obtain ⟨row, hd, hrow⟩ := t.row_eq (σ := σ) (ρ := ρ) (ω := ω) h span
  have hskip := skip_eq h skip { skip := s }
  have harity : row.arity = .binary := hd.arity
  simp only [apply, if_neg (t.ne_openParen h), hrow, harity, popOperand, applyBinary_eq h, hskip,
    pure_bind]

end Watched

theorem simulates_zeroIf {x : EvalM σ ρ ω Int64} {x' : EvalM σ (ρ ⊕ Breach) ω Int64}
    (hx : watching.Simulates Eq x x') (skip : Bool) :
    watching.Simulates Eq (zeroIf skip x) (zeroIf skip x') := by
  cases skip with
  | true => exact .pure rfl
  | false => exact hx

namespace Watches

variable {pending : List Pending} {waiting : List Tagged} (h : Watches f g)

include h

/-- An operator finds its operands, and its result takes their place. -/
theorem apply (ht : t.operator? = some op)
    (hm : Mirrors depth { m with pending := .operator op span skip :: pending }
      { c with waiting := ⟨t, span, skip⟩ :: waiting })
    (he : m.expectsOperand = false) :
    watching.Simulates (fun m' c' => Mirrors depth { m' with pending } { c' with waiting } ∧
      m'.expectsOperand = false)
      (f.apply op span skip m) (Watched.apply g ⟨t, span, skip⟩ { c with waiting }) := by
  obtain ⟨stale, operands, s, e⟩ := m
  obtain ⟨stale', operands', s', e'⟩ := c
  obtain ⟨⟨hb, ho, hp⟩, hw, rfl, rfl, rfl⟩ := hm
  obtain rfl : e = false := he
  cases hw with
  | cons hi hw =>
    cases op with
    | unary op =>
      have hlen : operands.length = binaries pending + 1 := hb
      obtain ⟨o, operands, rfl⟩ := List.exists_cons_of_length_eq_add_one hlen
      rw [Frame.apply_eq, Watched.apply_unary_eq ht]
      simp only [Frame.combine, bind_assoc, pure_bind]
      refine .bind (simulates_zeroIf (h.applyUnary op (operands_refl o) rfl) skip) ?_
      rintro n _ rfl
      exact .pure ⟨⟨⟨hlen, ho, Nat.le_of_succ_le hp⟩, hw, rfl, rfl, rfl⟩, rfl⟩
    | binary op =>
      have hlen : operands.length = binaries pending + 1 + 1 := hb
      obtain ⟨o', operands, rfl⟩ := List.exists_cons_of_length_eq_add_one hlen
      have hlen := Nat.succ.inj hlen
      obtain ⟨o, operands, rfl⟩ := List.exists_cons_of_length_eq_add_one hlen
      rw [Frame.apply_eq, Watched.apply_binary_eq ht]
      simp only [Frame.combine, bind_assoc, pure_bind]
      refine .bind (simulates_zeroIf
        (h.applyBinary op (operands_refl o) (operands_refl o') rfl) skip) ?_
      rintro n _ rfl
      refine .pure ⟨⟨⟨hlen, Nat.le_of_succ_le ho, Nat.le_of_succ_le hp⟩, hw, rfl, ?_, rfl⟩, rfl⟩
      cases op <;> rfl

/-- What is applied on the way down the stack leaves the rest with what it needs. -/
theorem reduce {ready : Operator → Bool} {stays : Tagged → EvalM σ (ρ ⊕ Breach) ω Bool}
    (hopen : ∀ span skip, stays ⟨.openParen, span, skip⟩ = pure true)
    (hop : ∀ t op span skip, t.operator? = some op → stays ⟨t, span, skip⟩ = pure (!ready op))
    (hm : Mirrors depth { m with pending } { c with waiting }) (he : m.expectsOperand = false) :
    watching.Simulates (fun m' c' => Mirrors depth m' c' ∧ m'.expectsOperand = false ∧
      ∀ op span skip rest, m'.pending = .operator op span skip :: rest → ready op = false)
      (f.reduce ready m pending) (Watched.reduce g stays c waiting) := by
  induction pending generalizing m c waiting with
  | nil =>
    cases hm.waiting
    refine .pure ⟨hm, he, ?_⟩
    rintro _ _ _ _ ⟨⟩
  | cons item pending ih =>
    obtain ⟨tagged, waiting, hi, -, rfl⟩ := List.forall₂_cons_left_iff.mp hm.waiting
    cases hi with
    | paren span skip =>
      rw [Frame.reduce, Watched.reduce, hopen, pure_bind]
      refine .pure ⟨hm, he, ?_⟩
      rintro _ _ _ _ ⟨⟩
    | @operator t op ht span skip =>
      rw [Frame.reduce, Watched.reduce, hop t op span skip ht, pure_bind]
      cases hr : ready op with
      | false =>
        refine .pure ⟨hm, he, ?_⟩
        rintro _ _ _ _ ⟨⟩
        exact hr
      | true =>
        refine .bind (h.apply ht hm he) ?_
        rintro m' c' ⟨hm', he'⟩
        exact ih hm' he'

omit h in
theorem staysOpen_eq (ht : t.operator? = some op) :
    (Watched.staysOpen ⟨t, span, skip⟩ : EvalM σ (ρ ⊕ Breach) ω Bool) = pure (!true) := by
  have hne : (t == .openParen) = false := beq_false_of_ne (t.ne_openParen ht)
  rw [Watched.staysOpen, hne]
  rfl

omit h in
theorem staysBelow_eq {b : BinaryOp} {u : Tag} {place : Span}
    (hu : u.operator? = some (.binary b)) (ht : t.operator? = some op) :
    (Watched.staysBelow u place ⟨t, span, skip⟩ : EvalM σ (ρ ⊕ Breach) ω Bool) =
      pure (!op.bindsBefore b) := by
  obtain ⟨incoming, hd, hincoming⟩ := u.row_eq (σ := σ) (ρ := ρ) (ω := ω) hu place
  obtain ⟨top, hd', htop⟩ := t.row_eq (σ := σ) (ρ := ρ) (ω := ω) ht span
  have hp : incoming.precedence = b.precedence := hd.precedence
  rw [Watched.staysBelow, hincoming, htop, pure_bind, pure_bind, hp, hd'.precedence,
    hd.groupsLeft b rfl, Operator.bindsBefore, BEq.comm (a := op.precedence)]

omit h in
/-- No operator binds less than an open parenthesis. -/
theorem staysBelow_openParen {b : BinaryOp} {u : Tag} {place : Span}
    (hu : u.operator? = some (.binary b)) :
    (Watched.staysBelow u place ⟨.openParen, span, skip⟩ : EvalM σ (ρ ⊕ Breach) ω Bool) =
      pure true := by
  obtain ⟨incoming, hd, hincoming⟩ := u.row_eq (σ := σ) (ρ := ρ) (ω := ω) hu place
  obtain ⟨row, hrow, hzero⟩ := Tag.row?_openParen
  have hp : incoming.precedence = b.precedence := hd.precedence
  have htop : (Tag.row .openParen span : EvalM σ (ρ ⊕ Breach) ω Row) = pure row := by
    rw [Tag.row, hrow]
  have hpos : b.precedence ≠ 0 := by
    cases b with
    | compute op => cases op <;> decide
    | _ => exact Nat.succ_ne_zero _
  have hne : (0 == b.precedence) = false := beq_false_of_ne (Ne.symm hpos)
  rw [Watched.staysBelow, hincoming, htop, pure_bind, pure_bind, hp, hzero]
  simp [hne]

omit h in
theorem exists_operand (hm : Mirrors depth m c) (he : m.expectsOperand = false) :
    ∃ o operands, m.operands = o :: operands ∧ c.operands = o :: operands := by
  have hb := hm.disciplined.balanced
  rw [Machine.Balanced, he] at hb
  obtain ⟨o, operands, ho⟩ := List.exists_cons_of_length_eq_add_one hb
  exact ⟨o, operands, ho, hm.operands ▸ ho⟩

omit h in
theorem replace_top (hm : Mirrors depth m c) {operands : List Operand}
    (ho : m.operands = o :: operands) (o' : Operand) :
    Mirrors depth { m with operands := o' :: operands } { c with operands := o' :: operands } := by
  obtain ⟨⟨hb, hle, hp⟩, hw, hos, hs, he⟩ := hm
  rw [Machine.Balanced, ho] at hb
  rw [ho] at hle
  exact ⟨⟨hb, hle, hp⟩, hw, rfl, hs, he⟩

theorem resolveTop (hm : Mirrors depth m c) (he : m.expectsOperand = false) (span : Span) :
    watching.Simulates (fun r r' => r.1 = r'.1 ∧ Mirrors depth r.2 r'.2 ∧
      r.2.expectsOperand = false) (f.resolveTop m span) (Watched.resolveTop g c span) := by
  obtain ⟨o, operands, ho, ho'⟩ := exists_operand hm he
  simp only [Frame.resolveTop, Frame.popOperand, Watched.resolveTop, Watched.popOperand, ho, ho',
    pure_bind]
  by_cases hs : m.skip
  · rw [if_pos hs, if_pos (hm.skip ▸ hs)]
    exact .pure ⟨rfl, replace_top hm ho _, he⟩
  · rw [if_neg hs, if_neg (hm.skip ▸ hs)]
    refine .bind (h.valueOf (operands_refl o)) ?_
    rintro n _ rfl
    exact .pure ⟨rfl, replace_top hm ho _, he⟩

theorem settle {b : BinaryOp} (ht : t.operator? = some (.binary b)) (hm : Mirrors depth m c)
    (he : m.expectsOperand = false) (span : Span) :
    watching.Simulates (fun r r' => r.1 = r'.1 ∧ Mirrors depth r.2 r'.2 ∧
      r.2.expectsOperand = false) (f.settle b m span) (Watched.settle g t c span) := by
  cases b with
  | logicalAnd | logicalOr =>
    cases t <;> cases ht
    refine .bind (h.resolveTop hm he span) ?_
    rintro ⟨n, m⟩ ⟨_, c⟩ ⟨rfl, hm, he⟩
    exact .pure ⟨rfl, hm, he⟩
  | comma | assign _ | compute _ =>
    have hs : Watched.settle g t c span = pure (false, c) := by cases t <;> cases ht <;> rfl
    rw [hs]
    exact .pure ⟨rfl, hm, he⟩

theorem pushOperand (hm : Mirrors f.stackDepth m c) (o : Operand) (span : Span) :
    watching.Simulates (Mirrors f.stackDepth) (f.pushOperand m o span)
      (Watched.pushOperand g c o span) := by
  obtain ⟨⟨hb, ho, hp⟩, hw, hos, hs, he⟩ := hm
  unfold Frame.pushOperand Watched.pushOperand
  rw [h.stackDepth, ← he, ← hos]
  split
  · exact .fail rfl rfl
  · next hexpects =>
    split
    · exact .fail rfl rfl
    · next hle =>
      refine .pure ⟨⟨?_, Nat.lt_of_not_le hle, hp⟩, hw, rfl, hs, rfl⟩
      have hexpects : m.expectsOperand = true := by simpa using hexpects
      rw [Machine.Balanced, hexpects] at hb
      exact congrArg (· + 1) hb

/-- An item that waits for an operand fits where all operands are needed for others. -/
theorem pushOperator {item : Pending} (hm : Mirrors f.stackDepth m c)
    (hi : Matches item ⟨t, span, m.skip⟩)
    (hb : m.operands.length = binaries (item :: m.pending)) :
    watching.Simulates (Mirrors f.stackDepth) (f.pushPending m item)
      (Watched.pushOperator g c t span) := by
  have hspan : item.span = span := by cases hi <;> rfl
  unfold Frame.pushPending Watched.pushOperator
  rw [h.stackDepth, ← hm.waiting.length_eq, hspan]
  split
  · exact .fail rfl rfl
  · next hle =>
    rw [hm.skip] at hi
    exact .pure ⟨⟨hb, hm.disciplined.operands_le, Nat.lt_of_not_le hle⟩, .cons hi hm.waiting,
      hm.operands, hm.skip, rfl⟩

theorem closeParen (hm : Mirrors f.stackDepth m c) (span : Span) :
    watching.Simulates (Mirrors f.stackDepth) (f.closeParen m span)
      (Watched.closeParen g c span) := by
  unfold Frame.closeParen Watched.closeParen
  rw [← hm.expectsOperand]
  cases he : m.expectsOperand with
  | true => exact .fail rfl rfl
  | false =>
    refine .bind (h.reduce (fun _ _ => rfl) (fun _ _ _ _ ht => staysOpen_eq ht) hm he) ?_
    rintro ⟨pending, operands, s, e⟩ ⟨waiting, _, _, _⟩
      ⟨⟨⟨hb, ho, hp⟩, hw, rfl, rfl, rfl⟩, he, htop⟩
    cases hw with
    | nil => exact .fail rfl rfl
    | cons hi hw =>
      cases hi with
      | paren => exact .pure ⟨⟨hb, ho, Nat.le_of_succ_le hp⟩, hw, rfl, rfl, rfl⟩
      | operator => cases htop _ _ _ _ rfl

theorem readUnary (hm : Mirrors f.stackDepth m c) (he : m.expectsOperand = true)
    (hs : (l, s) ∈ Symbol.spellings) (span : Span) :
    watching.Simulates (Mirrors f.stackDepth) (f.readUnary m s span)
      (Watched.readPrefix g c s span) := by
  have hb := hm.disciplined.balanced
  rw [Machine.Balanced, he] at hb
  unfold Frame.readUnary Watched.readPrefix
  split
  · exact h.pushOperator hm (.paren span m.skip) hb
  · next hopen =>
    have htag := Symbol.prefixTag?_eq hs hopen
    cases hu : s.asUnary? with
    | none =>
      rw [hu] at htag
      rw [Option.map_eq_none_iff.mp htag]
      exact .fail rfl rfl
    | some op =>
      rw [hu] at htag
      obtain ⟨t, hfound, ht⟩ := Option.map_eq_some_iff.mp htag
      rw [hfound]
      exact h.pushOperator hm (.operator ht span m.skip) hb

theorem readBinary (hm : Mirrors f.stackDepth m c) (he : m.expectsOperand = false)
    (hs : (l, s) ∈ Symbol.spellings) (span : Span) :
    watching.Simulates (Mirrors f.stackDepth) (f.readBinary m s span)
      (Watched.readBinary g c s span) := by
  have htag := Symbol.binaryTag?_eq hs
  unfold Frame.readBinary Watched.readBinary
  cases hb : s.asBinary? with
  | none =>
    rw [hb] at htag
    rw [Option.map_eq_none_iff.mp htag]
    exact .fail rfl rfl
  | some op =>
    rw [hb] at htag
    obtain ⟨t, hfound, ht⟩ := Option.map_eq_some_iff.mp htag
    rw [hfound]
    refine .bind (h.reduce (fun _ _ => staysBelow_openParen ht)
      (fun _ _ _ _ ht' => staysBelow_eq ht ht') hm he) ?_
    rintro m c ⟨hm, he, -⟩
    refine .bind (h.settle ht hm he span) ?_
    rintro ⟨decided, m⟩ ⟨_, c⟩ ⟨rfl, hm, he⟩
    dsimp only at hm he ⊢
    have hb := hm.disciplined.balanced
    rw [Machine.Balanced, he] at hb
    refine .bind (h.pushOperator hm (.operator ht span m.skip) hb) ?_
    rintro m c ⟨⟨hb, ho, hp⟩, hw, hos, hs, he⟩
    exact .pure ⟨⟨hb, ho, hp⟩, hw, hos, congrArg (· || decided) hs, he⟩

theorem readPostfix {q : Step} (hm : Mirrors f.stackDepth m c) (he : m.expectsOperand = false)
    (ht : ∀ o, Watched.applyUnary g t o span c.skip =
      zeroIf c.skip (do return (← g.applyStep q o span).1)) :
    watching.Simulates (Mirrors f.stackDepth) (f.readPostfix m q span)
      (Watched.readPostfix g c t span) := by
  obtain ⟨o, operands, ho, ho'⟩ := exists_operand hm he
  simp only [Frame.readPostfix, Frame.popOperand, Watched.readPostfix, Watched.popOperand, ho, ho',
    pure_bind, ht, zeroIf]
  by_cases hs : m.skip
  · rw [if_pos hs, if_pos (hm.skip ▸ hs)]
    exact .pure (replace_top hm ho _)
  · rw [if_neg hs, if_neg (hm.skip ▸ hs), bind_assoc]
    refine .bind (h.applyStep q (operands_refl o) rfl) ?_
    rintro r _ rfl
    exact .pure (replace_top hm ho _)

end Watches

/-- What is known of a token that is read from the source. -/
structure Token.IsRead (source : List Char) (b : Token) : Prop where
  spelt : ∀ s, b.value = .symbol s → ∃ l, (l, s) ∈ Symbol.spellings
  boundary : ∃ rest, dropBytes? b.span.start source = some rest

theorem isRead_of_mem {source : List Char} {b : Token} (hb : .ok b ∈ tokens source) :
    b.IsRead source := by
  obtain ⟨before, l, after, rfl, -, hspan, hlex⟩ := exists_of_mem_tokensFrom hb
  refine ⟨?_, l ++ after, ?_⟩
  · intro s hs
    have hw := written_of_lex_self (hlex b rfl)
    rw [hs] at hw
    cases hw with
    | symbol hmem hlong => exact ⟨l, hmem⟩
  · have hstart : b.span.start = byteLength before := by
      have hstart := congrArg Span.start hspan
      simpa [Reading.span] using hstart
    rw [hstart, dropBytes?_byteLength_append]

namespace Watches

variable (h : Watches f g)

include h

theorem readSymbol {b : Token} (hm : Mirrors f.stackDepth m c) (hb : b.IsRead f.source)
    (hv : b.value = .symbol s) :
    watching.Simulates (Mirrors f.stackDepth) (f.readSymbol m s b.span)
      (Watched.readSymbol g c s b.span) := by
  obtain ⟨l, hs⟩ := hb.spelt s hv
  obtain ⟨rest, hrest⟩ := hb.boundary
  have hlook : Watched.isPostfixPosition g b.span.start =
      pure (endsWithName (takeBytes b.span.start f.source)) := by
    rw [Watched.isPostfixPosition, h.source, hrest]
  unfold Frame.readSymbol Watched.readSymbol
  cases s with
  | closeParen => exact h.closeParen hm b.span
  | step q =>
    dsimp only
    rw [← hm.expectsOperand]
    cases he : m.expectsOperand with
    | true => exact h.readUnary hm he hs b.span
    | false =>
      simp only [Bool.false_eq_true, if_false, hlook, pure_bind]
      split
      · cases q with
        | increment => exact h.readPostfix hm he fun o => rfl
        | decrement => exact h.readPostfix hm he fun o => rfl
      · exact h.readBinary hm he hs b.span
  | openParen | unary _ | binary _ =>
    dsimp only
    rw [← hm.expectsOperand]
    cases he : m.expectsOperand with
    | true => exact h.readUnary hm he hs b.span
    | false => exact h.readBinary hm he hs b.span

theorem read {b : Token} (hm : Mirrors f.stackDepth m c) (hb : b.IsRead f.source) :
    watching.Simulates (Mirrors f.stackDepth) (f.read m b) (Watched.read g c b) := by
  unfold Frame.read Watched.read
  cases hv : b.value with
  | constant n => exact h.pushOperand hm _ b.span
  | «variable» name => exact h.pushOperand hm _ b.span
  | nested body opening =>
    dsimp only
    by_cases hs : m.skip
    · rw [if_pos hs, if_pos (hm.skip ▸ hs)]
      exact h.pushOperand hm (.value 0) b.span
    · rw [if_neg hs, if_neg (hm.skip ▸ hs)]
      refine .bind (h.descend body rfl (locates_nested rfl opening)) ?_
      rintro n _ rfl
      exact h.pushOperand hm (.value n) b.span
  | symbol s => exact h.readSymbol hm hb hv

theorem readAll {rs : List Reading} (hm : Mirrors f.stackDepth m c)
    (hrs : ∀ b, .ok b ∈ rs → b.IsRead f.source) :
    watching.Simulates (Mirrors f.stackDepth) (f.readAll m rs) (Watched.readAll g c rs) := by
  induction rs generalizing m c with
  | nil => exact .pure hm
  | cons r rs ih =>
    rcases r with ⟨e, span⟩ | b
    · exact .fail rfl rfl
    · refine .bind (h.read hm (hrs b List.mem_cons_self)) ?_
      rintro m c hm
      exact ih hm fun b hb => hrs b (List.mem_cons_of_mem _ hb)

theorem finish (hm : Mirrors f.stackDepth m c) :
    watching.Simulates Eq (f.finish m) (Watched.finish g c) := by
  unfold Frame.finish Watched.finish
  rw [← hm.expectsOperand]
  cases he : m.expectsOperand with
  | true =>
    obtain ⟨pending, operands, s, e⟩ := m
    obtain ⟨waiting, _, _, _⟩ := c
    obtain ⟨-, hw, rfl, rfl, rfl⟩ := hm
    cases hw with
    | nil => exact .pure rfl
    | cons hi hw => cases hi <;> exact .fail rfl rfl
  | false =>
    refine .bind (h.reduce (fun _ _ => rfl) (fun _ _ _ _ ht => staysOpen_eq ht) hm he) ?_
    rintro ⟨pending, operands, s, e⟩ ⟨waiting, _, _, _⟩
      ⟨⟨⟨hb, ho, hp⟩, hw, rfl, rfl, rfl⟩, he, htop⟩
    cases hw with
    | nil =>
      obtain rfl : e = false := he
      have hlen : operands.length = 1 := hb
      obtain ⟨o, rfl⟩ := List.length_eq_one_iff.mp hlen
      exact .pure rfl
    | cons hi hw => cases hi <;> exact .fail rfl rfl

theorem run : watching.Simulates Eq f.run (Watched.run g) := by
  unfold Frame.run Watched.run
  rw [h.source]
  refine .bind (h.readAll (mirrors_start _) fun b hb => isRead_of_mem hb) ?_
  rintro m c hm
  exact h.finish hm

theorem integer : watching.Simulates Eq f.integer (Watched.integer g) := by
  refine .bind h.run ?_
  rintro (- | o) _ rfl
  · exact .pure rfl
  · exact h.valueOf (operands_refl o)

theorem value : watching.Simulates Eq f.value (Watched.value g) := by
  refine .bind h.run ?_
  rintro r _ rfl
  refine h.result ?_
  cases r with
  | none => exact .none
  | some o => exact .some (operands_refl o)

end Watches

theorem inner_nested (a : Access σ ρ ω) (stackDepth levels : Nat) :
    watching.Inner (evaluateNested a stackDepth levels) (Watched.nested a stackDepth levels) := by
  induction levels with
  | zero => exact .none
  | succ levels ih =>
    refine .some fun body => ?_
    have h : Watches ⟨a, stackDepth, body, evaluateNested a stackDepth levels⟩
        ⟨a.watched, stackDepth, body, Watched.nested a stackDepth levels⟩ :=
      { access := accesses_watched a, depth := .inl rfl, inner := ih, whole := rfl, source := rfl }
    exact h.integer

/-- The error looks the same with the watch. -/
def Error.watched (e : Error ρ ω) : Error (ρ ⊕ Breach) ω := ⟨e.cause.map .inl id, e.span⟩

theorem Error.watched_ne_breach (e : Error ρ ω) (b : Breach) (span : Span) :
    e.watched ≠ ⟨.unreadable (.inr b), span⟩ := by
  obtain ⟨cause, place⟩ := e
  cases cause <;> simp [Error.watched, Cause.map]

/-- Both computations end alike, which leaves no breach to the one that is watched. -/
structure Unbroken (x : EvalM σ ρ ω α) (x' : EvalM σ (ρ ⊕ Breach) ω α) : Prop where
  outcome_eq : ∀ s, outcome x' s = ((outcome x s).1.mapError Error.watched, (outcome x s).2)
  no_breach : ∀ s b span, (outcome x' s).1 ≠ .error ⟨.unreadable (.inr b), span⟩

theorem unbroken_of_simulates {x : EvalM σ ρ ω α} {x' : EvalM σ (ρ ⊕ Breach) ω α}
    (h : watching.Simulates Eq x x') : Unbroken x x' := by
  have hend : ∀ s, outcome x' s =
      ((outcome x s).1.mapError Error.watched, (outcome x s).2) := by
    intro s
    have hx := h s s rfl
    generalize outcome x s = r at hx
    generalize outcome x' s = r' at hx
    cases hx with
    | ok ha hs =>
      rw [ha, hs]
      rfl
    | @error e e' s s' he hs =>
      have he' : e' = e.watched := by
        obtain ⟨cause, span⟩ := e'
        obtain ⟨hc, hl⟩ := he
        exact congrArg₂ Error.mk hc hl.symm
      rw [he', hs]
      rfl
    | excused hx => exact hx.elim
  refine ⟨hend, ?_⟩
  intro s b span hb
  rw [hend s] at hb
  rcases hr : (outcome x s).1 with e | a
  · rw [hr] at hb
    exact e.watched_ne_breach b span (Except.error.inj hb)
  · rw [hr] at hb
    cases hb

/-- After each token that is read without an error the stacks hold what the operators need and are
within their bound. So no operator lacks an operand, nothing but one operand is left at the end, an
open parenthesis is never applied, and each row of the table and each case of an operator is the
right one, at every depth: an evaluation that would stop at the first breach of this ends exactly
like one that does not look. -/
theorem stacks_disciplined (a : Access σ ρ ω) (stackDepth levels : Nat) (source : List Char) :
    let f : Frame σ ρ ω := ⟨a, stackDepth, source, evaluateNested a stackDepth levels⟩
    let g : Frame σ (ρ ⊕ Breach) ω :=
      ⟨a.watched, stackDepth, source, Watched.nested a stackDepth levels⟩
    (∀ k m, Yields (f.readAll {} ((tokens source).take k)) m → m.Disciplined stackDepth) ∧
      Unbroken f.run (Watched.run g) ∧ Unbroken f.integer (Watched.integer g) ∧
      Unbroken f.value (Watched.value g) := by
  intro f g
  have h : Watches f g :=
    { access := accesses_watched a
      depth := .inl rfl
      inner := inner_nested a stackDepth levels
      whole := rfl
      source := rfl }
  refine ⟨?_, unbroken_of_simulates h.run, unbroken_of_simulates h.integer,
    unbroken_of_simulates h.value⟩
  rintro k m ⟨s, s', hm⟩
  have hlegible : ∀ b, .ok b ∈ (tokens source).take k → b.IsRead source := fun b hb =>
    isRead_of_mem (List.mem_of_mem_take hb)
  have hread := h.readAll (mirrors_start stackDepth) hlegible s s rfl
  rw [hm] at hread
  generalize outcome (Watched.readAll g {} _) s = r at hread
  cases hread with
  | ok hm hs => exact hm.disciplined

end ShellCore.Arith

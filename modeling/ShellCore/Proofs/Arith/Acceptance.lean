import ShellCore.Proofs.Arith.Blame
import ShellCore.Proofs.Arith.Reading

/-! The evaluator accepts exactly the texts of the grammar. -/

namespace ShellCore.Arith

open Text

variable {source : List Char}

/-- The tokens read so far, of which the last one waits for an operand, and what is pending then. -/
inductive Partial (source : List Char) : List Token → List Pending → Prop
  | nil : Partial source [] []
  | paren {ts : List Token} {pending : List Pending} {span : Span} {skip : Bool}
    (h : Partial source ts pending) :
    Partial source (ts ++ [⟨.symbol .openParen, span⟩]) (.paren span skip :: pending)
  | unary {ts : List Token} {pending : List Pending} {s : Symbol} {op : UnaryOp} {span : Span}
    {skip : Bool} (h : Partial source ts pending) (hs : s.asUnary? = some op) :
    Partial source (ts ++ [⟨.symbol s, span⟩]) (.operator (.unary op) span skip :: pending)
  | binary {ts us : List Token} {pending : List Pending} {t : Tree} {op : BinaryOp} {span : Span}
    {skip : Bool} (h : Partial source ts pending) (ht : Parses source op.leftLevel us t)
    (hf : floor pending ≤ op.precedence) :
    Partial source (ts ++ (us ++ [⟨.symbol (.binary op), span⟩]))
      (.operator (.binary op) span skip :: pending)

/-- The tokens read so far end with a tree at the level, on top of what is pending. -/
def Holds (source : List Char) (level : Nat) (ts : List Token) (pending : List Pending) : Prop :=
  ∃ us vs t, ts = us ++ vs ∧ Partial source us pending ∧ Parses source level vs t ∧
    Parses source (floor pending) vs t

theorem Holds.mono {level level' : Nat} {ts : List Token} {pending : List Pending}
    (h : Holds source level ts pending) (hl : level' ≤ level) : Holds source level' ts pending := by
  obtain ⟨us, vs, t, hts, hp, ht, ht'⟩ := h
  exact ⟨us, vs, t, hts, hp, ht.weaken hl, ht'⟩

/-- What the machine has on its stacks is the beginning of a text of the grammar. -/
def Machine.Spells (source : List Char) (ts : List Token) (m : Machine) : Prop :=
  if m.expectsOperand then Partial source ts m.pending
  else Holds source stepLevel ts m.pending

/-- Applying the pending operator makes one tree of it and its operands. -/
theorem Holds.merge {level : Nat} {ts : List Token} {op : Operator} {span : Span} {skip : Bool}
    {rest : List Pending} (h : Holds source level ts (.operator op span skip :: rest))
    (hl : level ≤ op.precedence) : Holds source level ts rest := by
  obtain ⟨us, vs, t, rfl, hp, -, ht⟩ := h
  cases hp with
  | @unary us' _ s op _ _ hp hs =>
    have hf := Nat.le_of_lt_succ (floor_lt_stepLevel rest)
    refine ⟨us', ⟨.symbol s, span⟩ :: vs, .unary op span t, by simp, hp, ?_, ?_⟩
    · exact .unary hs hl ht
    · exact .unary hs hf ht
  | @binary us' ws _ u op _ _ hp hu hf =>
    refine ⟨us', ws ++ ⟨.symbol (.binary op), span⟩ :: vs, .binary op span u t, by simp, hp, ?_, ?_⟩
    · exact .binary hl hu ht
    · exact .binary hf hu ht

namespace Frame

variable {σ ρ ω : Type} (f : Frame σ ρ ω)

/-- Each operator that is applied makes one tree of its operands. It binds at least as tightly as
all operators that are ready. -/
theorem reduce_holds {ready : Operator → Bool} {level : Nat} {m m' : Machine} {ts : List Token}
    {pending : List Pending} (hready : ∀ op, ready op → level ≤ op.precedence)
    (h : Holds source level ts pending) (hy : Yields (f.reduce ready m pending) m') :
    m'.expectsOperand = m.expectsOperand ∧ Holds source level ts m'.pending ∧
      ∀ op span skip rest, m'.pending = .operator op span skip :: rest → ¬ ready op := by
  induction pending generalizing m with
  | nil =>
    have hm := yields_pure hy
    subst hm
    exact ⟨rfl, h, by simp⟩
  | cons item rest ih =>
    cases item with
    | paren span skip =>
      have hm := yields_pure hy
      subst hm
      exact ⟨rfl, h, by simp⟩
    | operator op span skip =>
      rw [reduce] at hy
      split at hy
      · next hr =>
        obtain ⟨m₁, hm₁, hy⟩ := yields_bind hy
        rw [apply_eq] at hm₁
        obtain ⟨operands, _, hm₁⟩ := yields_bind hm₁
        have hm := yields_pure hm₁
        subst hm
        have hi := ih (h.merge (hready op hr)) hy
        exact hi
      · next hr =>
        have hm := yields_pure hy
        subst hm
        refine ⟨rfl, h, ?_⟩
        rintro op' _ _ _ ⟨⟩
        exact hr

theorem popOperand_yields {m : Machine} {span : Span} {r : Operand × Machine}
    (hy : Yields (popOperand m span : EvalM σ ρ ω _) r) :
    r.2.pending = m.pending ∧ r.2.expectsOperand = m.expectsOperand := by
  unfold popOperand at hy
  split at hy
  · have hr := yields_pure hy
    subst hr
    exact ⟨rfl, rfl⟩
  · exact (not_yields_fail hy).elim

theorem resolveTop_yields {m : Machine} {span : Span} {r : Int64 × Machine}
    (hy : Yields (f.resolveTop m span) r) : r.2.pending = m.pending := by
  unfold resolveTop at hy
  obtain ⟨p, hp, hy⟩ := yields_bind hy
  have hpend := (popOperand_yields hp).1
  dsimp only at hy
  split at hy <;>
  · obtain ⟨n, _, hy⟩ := yields_bind hy
    have hr := yields_pure hy
    subst hr
    exact hpend

theorem settle_yields {op : BinaryOp} {m : Machine} {span : Span} {r : Bool × Machine}
    (hy : Yields (f.settle op m span) r) : r.2.pending = m.pending := by
  unfold settle at hy
  split at hy
  · obtain ⟨p, hp, hy⟩ := yields_bind hy
    have hr := yields_pure hy
    subst hr
    exact f.resolveTop_yields hp
  · obtain ⟨p, hp, hy⟩ := yields_bind hy
    have hr := yields_pure hy
    subst hr
    exact f.resolveTop_yields hp
  · have hr := yields_pure hy
    subst hr
    rfl

/-- The machine after a token that is an operand by itself. -/
theorem spells_atom {ts : List Token} {a : Token} {m m' : Machine} {o : Operand} {t : Tree}
    (h : m.Spells f.source ts) (ht : ∀ level, Parses f.source level [a] t)
    (hy : Yields (f.pushOperand m o a.span) m') : m'.Spells f.source (ts ++ [a]) := by
  obtain ⟨he, rfl⟩ := f.pushOperand_yields hy
  rw [Machine.Spells, if_pos he] at h
  exact ⟨ts, [a], t, rfl, h, ht _, ht _⟩

theorem spells_closeParen {ts : List Token} {span : Span} {m m' : Machine}
    (h : m.Spells f.source ts) (hy : Yields (f.closeParen m span) m') :
    m'.Spells f.source (ts ++ [⟨.symbol .closeParen, span⟩]) := by
  unfold closeParen at hy
  split at hy
  · exact (not_yields_fail hy).elim
  · next he =>
    rw [Machine.Spells, if_neg he] at h
    obtain ⟨m₁, hm₁, hy⟩ := yields_bind hy
    obtain ⟨he₁, h, hn⟩ := f.reduce_holds (fun _ _ => Nat.zero_le _) (h.mono (Nat.zero_le _)) hm₁
    obtain ⟨us, vs, t, rfl, hp, ht, -⟩ := h
    split at hy
    · next item rest hpend =>
      have hm := yields_pure hy
      subst hm
      rw [hpend] at hp hn
      cases hp with
      | @paren us _ a skip hp =>
        rw [Machine.Spells, if_neg (by simpa [he₁] using he)]
        exact ⟨us, ⟨.symbol .openParen, a⟩ :: (vs ++ [⟨.symbol .closeParen, span⟩]), t,
          by simp, hp, .paren ht, .paren ht⟩
      | unary => exact (hn _ _ _ _ rfl rfl).elim
      | binary => exact (hn _ _ _ _ rfl rfl).elim
    · exact (not_yields_fail hy).elim

theorem spells_unary {ts : List Token} {s : Symbol} {span : Span} {m m' : Machine}
    (h : m.Spells f.source ts) (he : m.expectsOperand = true)
    (hy : Yields (f.readUnary m s span) m') :
    m'.Spells f.source (ts ++ [⟨.symbol s, span⟩]) := by
  rw [Machine.Spells, if_pos he] at h
  unfold readUnary at hy
  split at hy
  · have hm := f.pushPending_yields hy
    subst hm
    exact .paren h
  · split at hy
    · next hs =>
      have hm := f.pushPending_yields hy
      subst hm
      exact .unary h hs
    · exact (not_yields_fail hy).elim

theorem spells_binary {ts : List Token} {s : Symbol} {span : Span} {m m' : Machine}
    (h : m.Spells f.source ts) (he : ¬ m.expectsOperand = true)
    (hy : Yields (f.readBinary m s span) m') :
    m'.Spells f.source (ts ++ [⟨.symbol s, span⟩]) := by
  rw [Machine.Spells, if_neg he] at h
  unfold readBinary at hy
  split at hy
  · next op hs =>
    obtain rfl := Symbol.eq_of_asBinary? hs
    obtain ⟨m₁, hm₁, hy⟩ := yields_bind hy
    obtain ⟨_, h, hn⟩ := f.reduce_holds (fun _ => bindsBefore_iff.mp)
      (h.mono (Nat.le_of_lt (leftLevel_lt_stepLevel op))) hm₁
    obtain ⟨us, vs, t, rfl, hp, ht, -⟩ := h
    obtain ⟨⟨d, m₂⟩, hm₂, hy⟩ := yields_bind hy
    obtain ⟨m₃, hm₃, hy⟩ := yields_bind hy
    have hm := yields_pure hy
    subst hm
    have hm := f.pushPending_yields hm₃
    subst hm
    have hpend : m₂.pending = m₁.pending := f.settle_yields hm₂
    have hf : floor m₁.pending ≤ op.precedence := floor_le_of_not_bindsBefore hn
    show Partial f.source _ (_ :: m₂.pending)
    rw [hpend, List.append_assoc]
    exact .binary hp ht hf
  · exact (not_yields_fail hy).elim

theorem spells_stepped {ts : List Token} {s : Step} {span : Span} {m m' : Machine}
    (h : m.Spells f.source ts) (he : ¬ m.expectsOperand = true)
    (hn : endsWithName (takeBytes span.start f.source))
    (hy : Yields (f.readPostfix m s span) m') :
    m'.Spells f.source (ts ++ [⟨.symbol (.step s), span⟩]) := by
  rw [Machine.Spells, if_neg he] at h
  obtain ⟨us, vs, t, rfl, hp, ht, -⟩ := h
  unfold readPostfix at hy
  obtain ⟨p, hpop, hy⟩ := yields_bind hy
  obtain ⟨hpend, hexp⟩ := popOperand_yields hpop
  have hm : m'.pending = m.pending ∧ m'.expectsOperand = m.expectsOperand := by
    dsimp only at hy
    split at hy <;>
    · obtain ⟨n, _, hy⟩ := yields_bind hy
      have hr := yields_pure hy
      subst hr
      exact ⟨hpend, hexp⟩
  rw [Machine.Spells, if_neg (by rwa [hm.2]), hm.1]
  exact ⟨us, vs ++ [⟨.symbol (.step s), span⟩], .stepped s span t, by simp, hp,
    .stepped ht hn, .stepped ht hn⟩

/-- Each token that is read without an error goes on with a text of the grammar. -/
theorem read_spells {ts : List Token} {a : Token} {m m' : Machine} (h : m.Spells f.source ts)
    (hy : Yields (f.read m a) m') : m'.Spells f.source (ts ++ [a]) := by
  obtain ⟨value, span⟩ := a
  cases value with
  | constant n => exact f.spells_atom h (fun _ => .constant) hy
  | «variable» name => exact f.spells_atom h (fun _ => .reference) hy
  | nested body opening =>
    simp only [read] at hy
    split at hy <;>
    · obtain ⟨n, _, hy⟩ := yields_bind hy
      exact f.spells_atom h (fun _ => .nested) hy
  | symbol s =>
    simp only [read, readSymbol] at hy
    split at hy
    · exact f.spells_closeParen h hy
    · split at hy
      · next he => exact f.spells_unary h he hy
      · next he =>
        split at hy
        · split at hy
          · next hn => exact f.spells_stepped h he hn hy
          · exact f.spells_binary h he hy
        · exact f.spells_binary h he hy

theorem readAll_spells {ts : List Token} {m m' : Machine} (h : m.Spells f.source ts) :
    ∀ {us : List Token}, Yields (f.readAll m (us.map .ok)) m' → m'.Spells f.source (ts ++ us) := by
  intro us hy
  induction us generalizing ts m with
  | nil =>
    have hm := yields_pure hy
    subst hm
    simpa using h
  | cons a us ih =>
    obtain ⟨m₁, hm₁, hy⟩ := yields_bind hy
    have h₁ := ih (f.read_spells h hm₁) hy
    simpa using h₁

theorem derivable_of_finish {ts : List Token} {m : Machine} {r : Option Operand}
    (h : m.Spells f.source ts) (hy : Yields (f.finish m) r) : ts = [] ∨ Derivable f.source ts := by
  unfold finish at hy
  unfold Machine.Spells at h
  split at hy
  · next he =>
    rw [if_pos he] at h
    split at hy
    · next hp =>
      rw [hp] at h
      cases h
      exact .inl rfl
    · exact (not_yields_fail hy).elim
  · next he =>
    rw [if_neg he] at h
    obtain ⟨m₁, hm₁, hy⟩ := yields_bind hy
    obtain ⟨_, ⟨us, vs, t, rfl, hp, ht, -⟩, _⟩ :=
      f.reduce_holds (fun _ _ => Nat.zero_le _) (h.mono (Nat.zero_le _)) hm₁
    split at hy
    · exact (not_yields_fail hy).elim
    · next hpend _ =>
      rw [hpend] at hp
      cases hp
      exact .inr ⟨t, ht⟩
    · exact (not_yields_fail hy).elim

/-- An expression that has a value is empty or a text of the grammar. -/
theorem derivable_of_integer {ts : List Token} {n : Int64} (hs : tokens f.source = ts.map .ok)
    (hy : Yields f.integer n) : ts = [] ∨ Derivable f.source ts := by
  obtain ⟨r, hr, _⟩ := yields_bind hy
  rw [run, hs] at hr
  obtain ⟨m, hm, hr⟩ := yields_bind hr
  have h : Machine.Spells f.source [] {} := .nil
  exact f.derivable_of_finish (f.readAll_spells h hm) hr

theorem run_of_tokens_nil (hs : tokens f.source = []) : f.run = pure none := by
  rw [run, hs]
  rfl

/-- A text of the grammar fails for what it computes, or as a stack is full. -/
theorem keepsOrder_integer {ts : List Token} {t : Tree} (hs : tokens f.source = ts.map .ok)
    (h : Parses f.source 0 ts t) (ht : t.isFlat) : KeepsOrder f.integer := by
  intro s e s' he
  rcases f.integer_agrees hs h s with ha | ⟨span, s'', ho⟩
  · exact t.keepsOrder_integer f ht s e s' (ha.symm.trans he)
  · rw [ho] at he
    cases he
    rfl

end Frame

/-- An expression without tokens is zero. One that is no text of the grammar has no value, whatever
the variables hold. One that is, and holds no expression in brackets of its own, is never told
that its operands, operators and parentheses do not fit together. -/
theorem evaluateInteger_accepts {σ ρ ω : Type} (access : Access σ ρ ω) (expression : String)
    (ts : List Token) (hs : tokens expression.toList = ts.map .ok) :
    (ts = [] → ∀ s, outcome (evaluateInteger access expression) s = (.ok 0, s)) ∧
    (ts ≠ [] → ¬ Derivable expression.toList ts →
      ∀ s n s', outcome (evaluateInteger access expression) s ≠ (.ok n, s')) ∧
    (Derivable expression.toList ts → (∀ a ∈ ts, a.value.isNested = false) →
      ∀ s e s', outcome (evaluateInteger access expression) s = (.error e, s') →
        e.cause ≠ .missingOperand ∧ e.cause ≠ .unmatchedParenthesis ∧
          e.cause ≠ .malformedExpression) := by
  refine ⟨?_, ?_, ?_⟩
  · rintro rfl s
    rw [evaluateInteger, Frame.integer, Frame.run_of_tokens_nil _ hs]
    rfl
  · intro hne hd s n s' h
    rcases (frame access {} expression.toList).derivable_of_integer hs ⟨s, s', h⟩ with h | h
    · exact hne h
    · exact hd h
  · rintro ⟨t, ht⟩ hn s e s' h
    have hk := (frame access {} expression.toList).keepsOrder_integer hs ht
      (Tree.isFlat_of_parses ht hn) s e s' h
    refine ⟨?_, ?_, ?_⟩ <;>
    · intro hc
      rw [hc] at hk
      cases hk

theorem trailing_step_accepted :
    tokens "x++".toList =
        [⟨.variable "x", ⟨0, 1⟩⟩, ⟨.symbol (.step .increment), ⟨1, 3⟩⟩].map .ok ∧
      ∀ s e s', outcome (evaluateInteger Bindings.access "x++") s = (.error e, s') →
        e.cause ≠ .missingOperand ∧ e.cause ≠ .unmatchedParenthesis ∧
          e.cause ≠ .malformedExpression := by
  have hs : tokens "x++".toList =
      [⟨.variable "x", ⟨0, 1⟩⟩, ⟨.symbol (.step .increment), ⟨1, 3⟩⟩].map .ok := rfl
  have ha := evaluateInteger_accepts Bindings.access "x++" _ hs
  have hd : Derivable "x++".toList
      [⟨.variable "x", ⟨0, 1⟩⟩, ⟨.symbol (.step .increment), ⟨1, 3⟩⟩] :=
    ⟨_, .stepped .reference (by decide)⟩
  exact ⟨hs, ha.2.2 hd (by simp [TokenValue.isNested])⟩

end ShellCore.Arith

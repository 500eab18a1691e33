import ShellCore.Proofs.Arith.Skipping

/-! The operands on the stack are what the pending operators and the text to come need. -/

namespace ShellCore.Arith

variable {σ ρ ω : Type} {f : Frame σ ρ ω} {p p' : Point} {s t : σ}

/-- How many of the items take two operands, of which one is on the stack. -/
def binaries : List Pending → Nat
  | [] => 0
  | .operator (.binary _) _ _ :: items => binaries items + 1
  | _ :: items => binaries items

/-- There is one operand for each binary operator that waits for its right side, and one more once
an operand has been read. -/
def Machine.Balanced (m : Machine) : Prop :=
  m.operands.length = binaries m.pending + if m.expectsOperand then 0 else 1

theorem Moves.balanced (h : Moves p p') (hb : p.machine.Balanced) : p'.machine.Balanced := by
  unfold Machine.Balanced at hb ⊢
  cases h with
  | unary hd ho | binary hd ho =>
    obtain ⟨he, hp, -⟩ := Point.due?_eq_some_iff.mp hd
    rw [he, hp, ho] at hb
    simpa [he, binaries] using hb
  | operand hd hu he =>
    rw [he] at hb
    simpa [Machine.hold] using hb
  | opening hd hu he | sign hd hu he =>
    rw [he] at hb
    simpa [Machine.await, binaries] using hb
  | closing hd hu he hp =>
    rw [he, hp] at hb
    simpa [he, binaries] using hb
  | stepped hd hu he ho | between hd hu he ho =>
    rw [he, ho] at hb
    simpa [he, binaries] using hb

theorem Frame.Passes.balanced (h : f.Passes s p t) : p.machine.Balanced := by
  induction h with
  | start => rfl
  | move h hm ih => exact (f.moves_of_yields h.layered.1 ⟨_, _, hm⟩).balanced ih

/-- Where nothing is due at the end of the text, either one operand is left or an item is, which is
then at fault. -/
theorem Frame.finish_eq (hd : p.due? = none) (hu : p.unread = []) (hb : p.machine.Balanced) :
    (p.machine.pending = [] ∧ ∃ o, f.finish p.machine = pure o ∧ ∀ x ∈ o, x ∈ p.machine.operands) ∨
      ∃ item ∈ p.machine.pending, ∃ c, f.finish p.machine = fail c item.span := by
  unfold finish
  cases he : p.machine.expectsOperand with
  | true =>
    rw [if_pos rfl]
    cases hp : p.machine.pending with
    | nil => exact .inl ⟨rfl, none, rfl, nofun⟩
    | cons item rest => exact .inr ⟨item, List.mem_cons_self, .missingOperand, rfl⟩
  | false =>
    have hall : ∀ op : Operator, op.isDue p.unread := fun op => by
      rw [hu]
      rfl
    rw [if_neg Bool.false_ne_true, f.reduce_all_eq hd he hall, pure_bind]
    cases hp : p.machine.pending with
    | nil =>
      have hlen : p.machine.operands.length = 1 := by
        rw [Machine.Balanced, hp, he] at hb
        simpa [binaries] using hb
      obtain ⟨o, ho⟩ := List.length_eq_one_iff.mp hlen
      rw [ho]
      exact .inl ⟨rfl, some o, rfl, by simp⟩
    | cons item rest => exact .inr ⟨item, List.mem_cons_self, .unmatchedParenthesis, rfl⟩

end ShellCore.Arith

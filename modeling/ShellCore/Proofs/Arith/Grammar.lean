import ShellCore.Arith.Reduction

/-! The grammar of expressions over tokens, and what may stand on the operator stack while a text
of the grammar is read. -/

namespace ShellCore.Arith

open Text

/-- What an expression says once its parentheses have told how it groups. -/
inductive Tree
  | constant (n : Int64)
  | reference (name : String) (span : Span)
  | nested (body : List Char) (opening : Nat) (span : Span)
  | unary (op : UnaryOp) (span : Span) (t : Tree)
  /-- A step that stands after its operand. -/
  | stepped (s : Step) (span : Span) (t : Tree)
  | binary (op : BinaryOp) (span : Span) (l r : Tree)

/-- How tightly the left operand has to bind. -/
def BinaryOp.leftLevel (op : BinaryOp) : Nat :=
  if op.groupsLeft then op.precedence else op.precedence + 1

/-- How tightly the right operand has to bind. -/
def BinaryOp.rightLevel (op : BinaryOp) : Nat :=
  if op.groupsLeft then op.precedence + 1 else op.precedence

/-- A step after an operand binds tighter than all operators before one and between two. -/
def stepLevel : Nat := 15

/-- The tokens spell the tree, whose operators outside parentheses bind at least as tightly as the
level. -/
inductive Parses (source : List Char) : Nat → List Token → Tree → Prop
  | constant {level : Nat} {n : Int64} {span : Span} :
    Parses source level [⟨.constant n, span⟩] (.constant n)
  | reference {level : Nat} {name : String} {span : Span} :
    Parses source level [⟨.variable name, span⟩] (.reference name span)
  | nested {level : Nat} {body : List Char} {opening : Nat} {span : Span} :
    Parses source level [⟨.nested body opening, span⟩] (.nested body opening span)
  | paren {level : Nat} {ts : List Token} {t : Tree} {a b : Span} (h : Parses source 0 ts t) :
    Parses source level (⟨.symbol .openParen, a⟩ :: (ts ++ [⟨.symbol .closeParen, b⟩])) t
  | stepped {level : Nat} {ts : List Token} {t : Tree} {s : Step} {span : Span}
    (h : Parses source stepLevel ts t) (hn : endsWithName (takeBytes span.start source)) :
    Parses source level (ts ++ [⟨.symbol (.step s), span⟩]) (.stepped s span t)
  | unary {level : Nat} {ts : List Token} {t : Tree} {s : Symbol} {op : UnaryOp} {span : Span}
    (hs : s.asUnary? = some op) (hl : level ≤ (Operator.unary op).precedence)
    (h : Parses source (Operator.unary op).precedence ts t) :
    Parses source level (⟨.symbol s, span⟩ :: ts) (.unary op span t)
  | binary {level : Nat} {ts us : List Token} {t u : Tree} {op : BinaryOp} {span : Span}
    (hl : level ≤ op.precedence) (ht : Parses source op.leftLevel ts t)
    (hu : Parses source op.rightLevel us u) :
    Parses source level (ts ++ ⟨.symbol (.binary op), span⟩ :: us) (.binary op span t u)

/-- The tokens form an expression. -/
def Derivable (source : List Char) (ts : List Token) : Prop := ∃ t, Parses source 0 ts t

variable {source : List Char} {level : Nat} {ts : List Token} {t : Tree}

theorem Parses.weaken {level' : Nat} (h : Parses source level ts t) (hl : level' ≤ level) :
    Parses source level' ts t := by
  cases h with
  | constant => exact .constant
  | reference => exact .reference
  | nested => exact .nested
  | paren h => exact .paren h
  | stepped h hn => exact .stepped h hn
  | unary hs hl' h => exact .unary hs (Nat.le_trans hl hl') h
  | binary hl' ht hu => exact .binary (Nat.le_trans hl hl') ht hu

/-- Two levels of operators group to the right: assignments and powers. -/
theorem groupsLeft_eq (op : BinaryOp) :
    op.groupsLeft = !(op.precedence == 2 || op.precedence == 13) := by
  cases op with
  | compute op => cases op <;> rfl
  | _ => rfl

theorem precedence_lt_unary (q : BinaryOp) (op : UnaryOp) :
    q.precedence < (Operator.unary op).precedence := by
  cases q with
  | compute q => cases q <;> simp [BinaryOp.precedence, Operator.precedence]
  | _ => simp [BinaryOp.precedence, Operator.precedence]

theorem precedence_lt_stepLevel (op : Operator) : op.precedence < stepLevel := by
  cases op with
  | unary op => simp [Operator.precedence, stepLevel]
  | binary op => exact Nat.lt_trans (precedence_lt_unary op .plus) (by decide)

theorem precedence_le_leftLevel (op : BinaryOp) : op.precedence ≤ op.leftLevel := by
  unfold BinaryOp.leftLevel
  split <;> omega

theorem precedence_le_rightLevel (op : BinaryOp) : op.precedence ≤ op.rightLevel := by
  unfold BinaryOp.rightLevel
  split <;> omega

theorem leftLevel_lt_stepLevel (op : BinaryOp) : op.leftLevel < stepLevel := by
  have h : op.precedence < 14 := precedence_lt_unary op .plus
  unfold BinaryOp.leftLevel stepLevel
  split <;> omega

theorem rightLevel_lt_stepLevel (op : BinaryOp) : op.rightLevel < stepLevel := by
  have h : op.precedence < 14 := precedence_lt_unary op .plus
  unfold BinaryOp.rightLevel stepLevel
  split <;> omega

/-- The pending operator is applied first if it may stand in the left operand of the other. -/
theorem bindsBefore_iff {op : Operator} {q : BinaryOp} :
    op.bindsBefore q ↔ q.leftLevel ≤ op.precedence := by
  unfold Operator.bindsBefore BinaryOp.leftLevel
  cases q.groupsLeft with
  | false =>
    simp only [Bool.and_false, Bool.or_false, decide_eq_true_iff, Bool.false_eq_true, if_false]
    omega
  | true =>
    simp only [Bool.and_true, Bool.or_eq_true, decide_eq_true_iff, beq_iff_eq, if_true]
    omega

/-- How tightly an operand on top of the pending items has to bind. -/
def floor : List Pending → Nat
  | .operator (.binary op) _ _ :: _ => op.rightLevel
  | .operator (.unary op) _ _ :: _ => (Operator.unary op).precedence
  | _ => 0

/-- A pending operator that is not applied first waits for what the other one makes. -/
theorem floor_operator_le_iff {op : Operator} {q : BinaryOp} {span : Span} {skip : Bool}
    {rest : List Pending} :
    floor (.operator op span skip :: rest) ≤ q.precedence ↔ ¬ op.bindsBefore q := by
  rw [bindsBefore_iff, Nat.not_le]
  cases op with
  | unary op =>
    have hq := precedence_lt_unary q op
    simp only [floor, BinaryOp.leftLevel]
    split <;> omega
  | binary op =>
    have ho := groupsLeft_eq op
    have hq := groupsLeft_eq q
    simp only [floor, BinaryOp.rightLevel, BinaryOp.leftLevel, Operator.precedence]
    by_cases he : op.precedence = q.precedence
    · have hg : op.groupsLeft = q.groupsLeft := by rw [ho, hq, he]
      rw [hg, he]
      cases q.groupsLeft <;> simp
    · split <;> split <;> omega

theorem floor_lt_stepLevel (pending : List Pending) : floor pending < stepLevel := by
  unfold floor
  split
  · exact rightLevel_lt_stepLevel _
  · exact precedence_lt_stepLevel _
  · decide

theorem floor_le_of_not_bindsBefore {q : BinaryOp} {pending : List Pending}
    (h : ∀ op span skip rest, pending = .operator op span skip :: rest → ¬ op.bindsBefore q) :
    floor pending ≤ q.precedence := by
  cases pending with
  | nil => exact Nat.zero_le _
  | cons item rest =>
    cases item with
    | paren => exact Nat.zero_le _
    | operator op span skip => exact floor_operator_le_iff.mpr (h op span skip rest rfl)

end ShellCore.Arith

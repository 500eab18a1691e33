import Mathlib.Data.List.Forall2
import ShellCore.Arith.Bindings
import ShellCore.Proofs.Arith.Enclosing
import ShellCore.Proofs.Arith.Recording
import ShellCore.Proofs.Arith.Segments

/-! Blanks between the tokens of an expression do not matter. -/

namespace ShellCore.Arith

open Text

variable {a : Char} {s s' t l gap before before' source source' : List Char}
  {ls : List (List Char)} {ts : List Token} {start : Nat}

/-- What the token takes up of its source. -/
def Token.text (source : List Char) (t : Token) : List Char :=
  takeBytes (t.span.stop - t.span.start) ((dropBytes? t.span.start source).getD [])

/-- The text consists of the lexemes in order, with at least one blank between any two of them and
any blanks at both ends. -/
inductive Spaced : List (List Char) → List Char → Prop
  | blank {gap : List Char} (hg : ∀ c ∈ gap, isBlank c) : Spaced [] gap
  | lexeme {gap l s : List Char} {ls : List (List Char)} (hg : ∀ c ∈ gap, isBlank c)
    (hs : Spaced ls s) (hd : ls ≠ [] → s.head?.any isBlank) : Spaced (l :: ls) (gap ++ (l ++ s))

/-- The tokens are the same, and so is what a step would do at their places. -/
structure Alike (source source' : List Char) (t t' : Token) : Prop where
  value : t.value = t'.value
  text : t.text source = t'.text source'
  endsWithName : endsWithName (takeBytes t.span.start source) =
    endsWithName (takeBytes t'.span.start source')

theorem Spaced.head (h : Spaced ls s) (hd : ls ≠ [] → s.head?.any isBlank) :
    ∀ c ∈ s.head?, isBlank c := by
  intro c hc
  cases h with
  | blank hg => exact hg c (List.mem_of_mem_head? hc)
  | lexeme => simpa [Option.mem_def.mp hc] using hd (List.cons_ne_nil _ _)

theorem endsWithName_gap (hg : ∀ c ∈ gap, isBlank c) (s : List Char) :
    endsWithName (s ++ gap) = endsWithName s := by
  have ht : trimEnd (s ++ gap) = trimEnd s := by
    rw [trimEnd, trimEnd, List.reverse_append, List.dropWhile_append_of_pos]
    exact fun c hc => hg c (List.mem_reverse.mp hc)
  rw [endsWithName, endsWithName, ht]

/-- Only the last lexeme decides. -/
theorem endsWithName_lexeme (ha : isBlank a = false) (s l : List Char) :
    endsWithName (s ++ a :: l) = endsWithName (a :: l) := by
  have hne : trimEnd (a :: l) ≠ [] := by
    intro he
    have hd := List.dropWhile_eq_nil_iff.mp (List.reverse_eq_nil_iff.mp he) a (by simp)
    rw [ha] at hd
    cases hd
  rw [endsWithName, endsWithName, trimEnd_append hne, List.getLast?_append]
  cases hl : (trimEnd (a :: l)).getLast? with
  | none => exact absurd (List.getLast?_eq_none_iff.mp hl) hne
  | some c => rfl

theorem text_of_span {b : Token} (l s : List Char)
    (hb : b.span = ⟨byteLength before, byteLength before + byteLength l⟩) :
    b.text (before ++ (l ++ s)) = l := by
  rw [Token.text, hb, dropBytes?_byteLength_append]
  simp [takeBytes_byteLength_append]

/-- A lexeme at another place. -/
theorem alike_lexeme {b : Token} {gap' : List Char}
    (hb : b.span = ⟨byteLength (before ++ gap), byteLength (before ++ gap) + byteLength l⟩)
    (hg : ∀ c ∈ gap, isBlank c) (hg' : ∀ c ∈ gap', isBlank c)
    (hbefore : endsWithName before = endsWithName before') (s s' : List Char) :
    Alike (before ++ gap ++ (l ++ s)) (before' ++ gap' ++ (l ++ s')) b
      ⟨b.value, ⟨byteLength (before' ++ gap'), byteLength (before' ++ gap') + byteLength l⟩⟩ := by
  refine ⟨rfl, ?_, ?_⟩
  · rw [text_of_span l s hb, text_of_span l s' rfl]
  · rw [hb]
    dsimp only
    rw [takeBytes_byteLength_append, takeBytes_byteLength_append, endsWithName_gap hg,
      endsWithName_gap hg', hbefore]

theorem tokensFrom_spaced (hs : tokensFrom (byteLength before) 0 s = ts.map .ok)
    (hspaced : Spaced (ts.map (Token.text (before ++ s))) s')
    (hbefore : endsWithName before = endsWithName before') :
    ∃ ts', tokensFrom (byteLength before') 0 s' = ts'.map .ok ∧
      List.Forall₂ (Alike (before ++ s) (before' ++ s')) ts ts' := by
  induction ts generalizing before s before' s' with
  | nil =>
    cases hspaced with
    | blank hg =>
      exact ⟨[], tokensFrom_blank hg _, .nil⟩
  | cons b ts ih =>
    obtain ⟨gap, a, l, rest, rfl, hg, ha, hl, hspan, hrest⟩ := exists_of_tokensFrom hs
    have hsource : before ++ (gap ++ (a :: l ++ rest)) = before ++ gap ++ (a :: l ++ rest) := by
      simp
    rw [← byteLength_append] at hspan hrest
    rw [hsource, List.map_cons, text_of_span (a :: l) rest hspan] at hspaced
    cases hspaced with
    | @lexeme gap' _ s' _ hg' hspaced hd =>
      have hlex : lex (a :: l ++ s') = (.ok b.value, l.length + 1) := by
        have hhead := hspaced.head hd
        cases s' with
        | nil => rwa [List.append_nil]
        | cons d s' => exact (lex_append (isDelimiter_of_isBlank (hhead d rfl)) hl).1
      have hsource' : before' ++ (gap' ++ (a :: l ++ s')) = before' ++ gap' ++ (a :: l ++ s') := by
        simp
      rw [← byteLength_append] at hrest
      rw [← List.append_assoc (before ++ gap)] at hspaced
      have hends : endsWithName (before ++ gap ++ a :: l) =
          endsWithName (before' ++ gap' ++ a :: l) := by
        rw [endsWithName_lexeme ha, endsWithName_lexeme ha]
      obtain ⟨ts', hts', halike⟩ := ih hrest hspaced hends
      rw [List.append_assoc (before ++ gap), List.append_assoc (before' ++ gap')] at halike
      have hall := halike.cons (alike_lexeme hspan hg hg' hbefore rest s')
      rw [hsource, hsource']
      refine ⟨_, ?_, hall⟩
      rw [tokensFrom_token hg' ha hlex, ← byteLength_append,
        ← byteLength_append, hts']
      rfl

theorem tokens_spaced (hs : tokens source = ts.map .ok)
    (hspaced : Spaced (ts.map (Token.text source)) source') :
    ∃ ts', tokens source' = ts'.map .ok ∧ List.Forall₂ (Alike source source') ts ts' := by
  have hempty : endsWithName [] = endsWithName [] := rfl
  have hs' : tokensFrom (byteLength []) 0 source = ts.map .ok := hs
  exact tokensFrom_spaced hs' hspaced hempty

variable {σ ρ ω : Type}

/-- The same surroundings twice, wherever in its source something stands. -/
def anywhere : Comparison σ σ ρ ρ ω ω where
  states := Eq
  spans _ _ := True
  unreadable := id
  unassignable := id
  excused _ := False
  spans_refl _ := trivial
  spans_shift _ _ _ := trivial
  not_isSyntax := Comparison.not_isSyntax_of_false

open Comparison

theorem accesses_anywhere {access : Access σ ρ ω}
    (ha : ∀ name value span span', access.assign name value span = access.assign name value span') :
    (anywhere (ρ := ρ) (ω := ω)).Accesses access access where
  get := by
    rintro name s _ rfl
    exact ⟨(mapError_id _).symm, rfl⟩
  assign := by
    rintro name value span span' - s _ rfl
    rw [ha name value span' span]
    exact ⟨(mapError_id _).symm, rfl⟩
  expandWord := by
    rintro text s _ rfl
    exact ⟨rfl, rfl⟩
  substituteCommand := by
    rintro text s _ rfl
    exact ⟨rfl, rfl⟩
  setExitStatus := by
    rintro status s _ rfl
    rfl

theorem readings_of_alike {ts' : List Token} (h : List.Forall₂ (Alike source source') ts ts') :
    List.Forall₂ ((anywhere (σ := σ) (ρ := ρ) (ω := ω)).Readings source source')
      (ts.map .ok) (ts'.map .ok) := by
  rw [List.forall₂_map_left_iff, List.forall₂_map_right_iff]
  exact h.imp fun b b' hb => .token ⟨hb.value, trivial, fun _ _ => hb.endsWithName⟩

/-- It does not matter at which place an error stands. -/
theorem causes_of_ends {α : Type} {r r' : Except (Error ρ ω) α × σ}
    (h : (anywhere (σ := σ) (ρ := ρ) (ω := ω)).Ends Eq r r') :
    r'.1.mapError (·.cause) = r.1.mapError (·.cause) ∧ r'.2 = r.2 := by
  cases h with
  | ok ha hs => exact ⟨by rw [ha], hs.symm⟩
  | error he hs => exact ⟨congrArg Except.error (he.cause.trans (map_id _)), hs.symm⟩
  | excused h => exact h.elim

/-- Blanks between the lexemes of an expression change neither its tokens nor what its steps belong
to. Where it does not matter at which place a variable stands, they change nothing about its value
or the cause that it has none, nor about the state that its evaluation leaves. -/
theorem evaluateInteger_spaced (access : Access σ ρ ω)
    (ha : ∀ name value span span', access.assign name value span = access.assign name value span')
    {expression expression' : String} {ts : List Token}
    (hs : tokens expression.toList = ts.map .ok)
    (hspaced : Spaced (ts.map (Token.text expression.toList)) expression'.toList) :
    (∃ ts', tokens expression'.toList = ts'.map .ok ∧
      List.Forall₂ (Alike expression.toList expression'.toList) ts ts') ∧
    ∀ s, (outcome (evaluateInteger access expression') s).1.mapError (·.cause) =
        (outcome (evaluateInteger access expression) s).1.mapError (·.cause) ∧
      (outcome (evaluateInteger access expression') s).2 =
        (outcome (evaluateInteger access expression) s).2 := by
  obtain ⟨ts', hs', halike⟩ := tokens_spaced hs hspaced
  refine ⟨⟨ts', hs', halike⟩, fun s => ?_⟩
  have hreadings := readings_of_alike (σ := σ) (ρ := ρ) (ω := ω) halike
  rw [← hs, ← hs'] at hreadings
  have hframes : anywhere.Frames (frame access {} expression.toList)
      (frame access {} expression'.toList) :=
    (accesses_anywhere ha).frame (.inl rfl) (.inl rfl) trivial
  exact causes_of_ends (hframes.integer hreadings s s rfl)

/-- With blanks of three kinds, `++` is still a step of `x` and `+` before a constant a sum. -/
theorem step_and_sum_spaced :
    let vars : Bindings := .ofList [("x", "4")]
    let r := outcome (evaluateInteger Bindings.access "\ty = x\u00a0++ +  0x1F\u3000") vars
    r.1.mapError (·.cause) = .ok 35 ∧ r.2.get? "x" = some "5" ∧ r.2.get? "y" = some "35" := by
  intro vars r
  have hs : tokens "y=x+++0x1F".toList =
      [⟨.variable "y", ⟨0, 1⟩⟩, ⟨.symbol (.binary (.assign none)), ⟨1, 2⟩⟩,
        ⟨.variable "x", ⟨2, 3⟩⟩, ⟨.symbol (.step .increment), ⟨3, 5⟩⟩,
        ⟨.symbol (.binary (.compute .add)), ⟨5, 6⟩⟩, ⟨.constant 31, ⟨6, 10⟩⟩].map .ok := rfl
  have hspaced : Spaced [['y'], ['='], ['x'], ['+', '+'], ['+'], ['0', 'x', '1', 'F']]
      (['\t'] ++ (['y'] ++ ([' '] ++ (['='] ++ ([' '] ++ (['x'] ++ (['\u00a0'] ++ (['+', '+'] ++
        ([' '] ++ (['+'] ++ ([' ', ' '] ++ (['0', 'x', '1', 'F'] ++ ['\u3000'])))))))))))) := by
    have blank {gap : List Char} (h : gap.all isBlank) : ∀ c ∈ gap, isBlank c :=
      List.all_eq_true.mp h
    refine .lexeme (blank rfl) (.lexeme (blank rfl) (.lexeme (blank rfl) (.lexeme (blank rfl)
      (.lexeme (blank rfl) (.lexeme (blank rfl) (.blank (blank rfl)) ?_) ?_) ?_) ?_) ?_) ?_ <;>
    · intro _
      decide
  obtain ⟨-, hv⟩ := evaluateInteger_spaced Bindings.access (fun _ _ _ _ => rfl) hs
    (show Spaced _ "\ty = x\u00a0++ +  0x1F\u3000".toList from hspaced)
  obtain ⟨hr, hvars⟩ := hv vars
  refine ⟨hr.trans ?_, (congrArg (·.get? "x") hvars).trans ?_,
    (congrArg (·.get? "y") hvars).trans ?_⟩ <;>
  · decide +kernel

end ShellCore.Arith

import ShellCore.Proofs.CommandLine.Arguments
import ShellCore.Proofs.CommandLine.Places
import ShellCore.Proofs.Effect

/-! Each call of the option reader goes forward, so that loops over the options end. -/

namespace ShellCore.CommandLine

open Text

variable {args : List String} {spec : OptionSpec} {c c' : Cursor} {p : Place} {found : Next}
  {arg : String} {i j n : Nat} {σ β : Type}

/-- The cursor has gone on to a place in the arguments. An offset that is not zero stands between
two characters of an argument. -/
structure Advances (args : List String) (c c' : Cursor) : Prop where
  later : Prod.Lex (· < ·) (· < ·) (c.index, c.sub) (c'.index, c'.sub)
  index_le : c'.index ≤ args.length
  inside : c'.sub = 0 ∨ ∃ arg before rest, args[c'.index]? = some arg ∧
    arg.toList = before ++ rest ∧ before ≠ [] ∧ rest ≠ [] ∧ c'.sub = byteLength before

/-- The cursor is behind the option in its argument, or at the start of a later argument. -/
theorem Place.Reads.lands (h : p.Reads args spec found c') (hp : p.index < args.length) :
    p.rest ≠ [] ∧ c'.index = p.index ∧ c'.sub = byteLength (p.before ++ [p.option]) ∨
      c'.sub = 0 ∧ p.index < c'.index ∧ c'.index ≤ args.length := by
  have hafter : p.rest ≠ [] ∧ p.after.index = p.index ∧
        p.after.sub = byteLength (p.before ++ [p.option]) ∨
      p.after.sub = 0 ∧ p.index < p.after.index ∧ p.after.index ≤ args.length := by
    unfold Place.after
    split
    · exact .inr ⟨rfl, Nat.lt_succ_self _, hp⟩
    · next hr => exact .inl ⟨mt List.isEmpty_iff.mpr hr, rfl, by simp⟩
  cases h with
  | unknown | alone => exact hafter
  | attached | missing => exact .inr ⟨rfl, Nat.lt_succ_self _, hp⟩
  | following _ _ ha =>
    have hi := (List.getElem?_eq_some_iff.mp ha).1
    exact .inr ⟨rfl, by dsimp only; omega, hi⟩

theorem advances_of_reads (hf : p.Follows args c) (h : p.Reads args spec found c') :
    Advances args c c' := by
  obtain ⟨arg, ha, hl⟩ := hf.arg
  have hp := (List.getElem?_eq_some_iff.mp ha).1
  have hle := hf.index_le
  rcases h.lands hp with ⟨hr, hi, hs⟩ | ⟨hs, hlt, hi⟩
  · have hl : arg.toList = (p.before ++ [p.option]) ++ p.rest := by simp [hl]
    refine ⟨?_, by omega, .inr ⟨arg, _, _, hi ▸ ha, hl, by simp, hr, hs⟩⟩
    rw [hi, hs, byteLength_append]
    rcases Nat.lt_or_eq_of_le hle with hlt | he
    · exact .left _ _ hlt
    · have hsub := hf.sub_le he.symm
      have ho := p.option.utf8Size_pos
      rw [he]
      exact .right _ (by simp only [byteLength_cons]; omega)
  · exact ⟨.left _ _ (by omega), hi, .inl hs⟩

theorem next_advances (h : next args spec c = (found, c')) (hf : found ≠ .done) :
    Advances args c c' := by
  obtain ⟨p, hp, hr⟩ := exists_place_of_next h hf
  exact advances_of_reads (follows_of_position hp) hr

/-- The number of characters in the arguments. -/
def charCount : List String → Nat
  | [] => 0
  | arg :: args => arg.toList.length + charCount args

/-- The number of characters from the cursor on. -/
def charsLeft (args : List String) (c : Cursor) : Nat :=
  match args.drop c.index with
  | [] => 0
  | arg :: args => ((dropBytes? c.sub arg.toList).getD []).length + charCount args

theorem charCount_append (args more : List String) :
    charCount (args ++ more) = charCount args + charCount more := by
  induction args with
  | nil => rw [List.nil_append, charCount, Nat.zero_add]
  | cons arg args ih => rw [List.cons_append, charCount, charCount, ih, Nat.add_assoc]

theorem charCount_drop_le (args : List String) (h : i ≤ j) :
    charCount (args.drop j) ≤ charCount (args.drop i) := by
  obtain ⟨k, rfl⟩ := Nat.exists_eq_add_of_le h
  have hk := charCount_append ((args.drop i).take k) ((args.drop i).drop k)
  rw [List.take_append_drop, List.drop_drop] at hk
  omega

theorem charsLeft_eq (ha : args[c.index]? = some arg) :
    charsLeft args c =
      ((dropBytes? c.sub arg.toList).getD []).length + charCount (args.drop (c.index + 1)) := by
  obtain ⟨hi, rfl⟩ := List.getElem?_eq_some_iff.mp ha
  rw [charsLeft, List.drop_eq_getElem_cons hi]

theorem charsLeft_congr (hi : c.index = c'.index) (hs : c.sub = c'.sub) :
    charsLeft args c = charsLeft args c' := by
  rw [charsLeft, charsLeft, hi, hs]

theorem length_dropBytes?_le (n : Nat) (s : List Char) :
    ((dropBytes? n s).getD []).length ≤ s.length := by
  rcases hd : dropBytes? n s with - | t
  · exact Nat.zero_le _
  · obtain ⟨hs, -⟩ := dropBytes?_eq_some hd
    have hl := congrArg List.length hs
    rw [List.length_append] at hl
    rw [Option.getD_some]
    omega

/-- At the start of an argument all of it is left. -/
theorem charsLeft_le_drop (args : List String) (c : Cursor) :
    charsLeft args c ≤ charCount (args.drop c.index) := by
  unfold charsLeft
  split
  · exact Nat.zero_le _
  · next arg rest hd =>
    have hl := length_dropBytes?_le c.sub arg.toList
    rw [hd, charCount]
    omega

theorem charsLeft_le (args : List String) (c : Cursor) : charsLeft args c ≤ charCount args :=
  Nat.le_trans (charsLeft_le_drop args c) (charCount_drop_le args (Nat.zero_le c.index))

/-- The option and what follows it are still to be read. -/
theorem place_le_charsLeft (h : position args spec c = .atOption p) :
    p.rest.length + 1 + charCount (args.drop (p.index + 1)) ≤ charsLeft args c := by
  rcases suffix_of_position h with hlt | ⟨hi, arg, left, ha, hd, hs⟩
  · obtain ⟨arg, ha, hl⟩ := (follows_of_position h).arg
    obtain ⟨arg', ha'⟩ : ∃ arg', args[c.index]? = some arg' := by
      have hp := (List.getElem?_eq_some_iff.mp ha).1
      exact ⟨_, List.getElem?_eq_getElem (by omega)⟩
    have hd : charCount (args.drop p.index) ≤ charCount (args.drop (c.index + 1)) :=
      charCount_drop_le args hlt
    obtain ⟨hp, rfl⟩ := List.getElem?_eq_some_iff.mp ha
    rw [List.drop_eq_getElem_cons hp, charCount, hl, List.length_append,
      List.length_cons] at hd
    rw [charsLeft_eq ha']
    omega
  · have hle := hs.length_le
    rw [List.length_cons] at hle
    rw [charsLeft_eq ha, hd, hi, Option.getD_some]
    omega

theorem charsLeft_lt (h : next args spec c = (found, c')) (hf : found ≠ .done) :
    charsLeft args c' < charsLeft args c := by
  obtain ⟨p, hp, hr⟩ := exists_place_of_next h hf
  obtain ⟨arg, ha, hl⟩ := (follows_of_position hp).arg
  have hle := place_le_charsLeft hp
  rcases hr.lands (List.getElem?_eq_some_iff.mp ha).1 with ⟨-, hi, hs⟩ | ⟨-, hlt, -⟩
  · have hl : arg.toList = (p.before ++ [p.option]) ++ p.rest := by simp [hl]
    rw [charsLeft_eq (hi ▸ ha), hi, hs, hl, dropBytes?_byteLength_append, Option.getD_some]
    omega
  · have hd := charsLeft_le_drop args c'
    have hm : charCount (args.drop c'.index) ≤ charCount (args.drop (p.index + 1)) :=
      charCount_drop_le args hlt
    omega

/-- Repeats a round, at most `n` times, until one of them leaves with a result. -/
def rounds (round : Cursor → StateM σ (Cursor ⊕ β)) : Nat → Cursor → StateM σ (Option β)
  | 0, _ => return none
  | n + 1, c => do
    match ← round c with
    | .inl c => rounds round n c
    | .inr b => return some b

section

variable {round : Cursor → StateM σ (Cursor ⊕ β)} {s s' : σ} {b : β}

theorem rounds_of_inl (h : (round c).run s = (.inl c', s')) (n : Nat) :
    (rounds round (n + 1) c).run s = (rounds round n c').run s' := by
  rw [rounds, run_bind_of_run h]

theorem rounds_of_inr (h : (round c).run s = (.inr b, s')) (n : Nat) :
    (rounds round (n + 1) c).run s = (some b, s') := by
  rw [rounds, run_bind_of_run h]
  rfl

/-- The round goes on only behind an option or an error. -/
def GoesOnBehind (args : List String) (spec : OptionSpec)
    (round : Cursor → StateM σ (Cursor ⊕ β)) : Prop :=
  ∀ c s c' s', (round c).run s = (.inl c', s') → (next args spec c).1 ≠ .done ∧
    c'.index = (next args spec c).2.index ∧ c'.sub = (next args spec c).2.sub

/-- There are no more rounds than characters, and one. -/
theorem rounds_leave (h : GoesOnBehind args spec round) (hn : charsLeft args c < n) (s : σ) :
    ∃ b s', (rounds round n c).run s = (some b, s') := by
  induction n generalizing c s with
  | zero => exact absurd hn (Nat.not_lt_zero _)
  | succ n ih =>
    rcases hr : (round c).run s with ⟨c' | b, s'⟩
    · obtain ⟨hf, hi, hs⟩ := h c s c' s' hr
      have hlt : charsLeft args (next args spec c).2 < charsLeft args c := charsLeft_lt rfl hf
      have hm : charsLeft args c' = charsLeft args (next args spec c).2 := charsLeft_congr hi hs
      rw [rounds_of_inl hr]
      exact ih (by omega) s'
    · exact ⟨b, s', rounds_of_inr hr n⟩

end

/-- Calls the reader, notes what it finds, and leaves when no option is left. -/
def scanRound (args : List String) (spec : OptionSpec) (c : Cursor) :
    StateM (List Next) (Cursor ⊕ Cursor) := do
  let (found, c) := next args spec c
  modify (· ++ [found])
  return if found = .done then .inr c else .inl c

/-- Each call but the last one has found another option or error. -/
theorem rounds_scanRound (hn : charsLeft args c < n) (noted : List Next) :
    ∃ found last, (rounds (scanRound args spec) n c).run noted =
        (some last, noted ++ (found ++ [.done])) ∧
      .done ∉ found ∧ found.length ≤ charsLeft args c := by
  induction n generalizing c noted with
  | zero => exact absurd hn (Nat.not_lt_zero _)
  | succ n ih =>
    have hr : (scanRound args spec c).run noted =
        (if (next args spec c).1 = .done then .inr (next args spec c).2
          else .inl (next args spec c).2, noted ++ [(next args spec c).1]) := rfl
    by_cases hf : (next args spec c).1 = .done
    · rw [if_pos hf, hf] at hr
      exact ⟨[], _, rounds_of_inr hr n, List.not_mem_nil, Nat.zero_le _⟩
    · have hlt : charsLeft args (next args spec c).2 < charsLeft args c := charsLeft_lt rfl hf
      rw [if_neg hf] at hr
      obtain ⟨found, last, hrun, hd, hle⟩ :=
        ih (Nat.lt_of_lt_of_le hlt (Nat.le_of_lt_succ hn)) (noted ++ [(next args spec c).1])
      refine ⟨(next args spec c).1 :: found, last, ?_, ?_, ?_⟩
      · rw [rounds_of_inl hr, hrun, List.append_assoc]
        rfl
      · exact fun hm => (List.mem_cons.mp hm).elim (fun he => hf he.symm) hd
      · rw [List.length_cons]
        omega

/-- Adds the option that the reader finds. Leaves when it finds none, or an error. -/
def parseRound (args : List String) (spec : OptionSpec) (c : Cursor) :
    StateM (List Parsed) (Cursor ⊕ Except ParseError (List Parsed × Nat)) := do
  match next args spec c with
  | (.option name plus, c) =>
    modify (· ++ [⟨name, plus, c.argument.value?⟩])
    return .inl { c with argument := .absent }
  | (.done, c) => return .inr (.ok (← get, c.index))
  | (.error e, _) => return .inr (.error e)

/-- A loop that collects the options yields what the recursion yields. -/
theorem rounds_parseRound (hn : charsLeft args c < n) (options : List Parsed) :
    ((rounds (parseRound args spec) n c).run options).1 =
      some (prepend options (parseFrom args spec c)) := by
  induction n generalizing c options with
  | zero => exact absurd hn (Nat.not_lt_zero _)
  | succ n ih =>
    rcases hx : next args spec c with ⟨found, c'⟩
    cases found with
    | option name plus =>
      have hr : (parseRound args spec c).run options = (.inl { c' with argument := .absent },
          options ++ [⟨name, plus, c'.argument.value?⟩]) := by
        rw [parseRound, hx]
        rfl
      have hlt : charsLeft args c' < charsLeft args c :=
        charsLeft_lt hx Next.noConfusion
      have hm : charsLeft args { c' with argument := .absent } = charsLeft args c' :=
        charsLeft_congr rfl rfl
      have hc : parseFrom args spec { c' with argument := .absent } = parseFrom args spec c' :=
        parseFrom_congr rfl rfl
      rw [rounds_of_inl hr, ih (by omega), hc, parseFrom_option hx, prepend_append]
    | done =>
      have hr : (parseRound args spec c).run options =
          (.inr (.ok (options, c'.index)), options) := by
        rw [parseRound, hx]
        rfl
      rw [rounds_of_inr hr, parseFrom_done hx, prepend_ok, List.append_nil]
    | error e =>
      have hr : (parseRound args spec c).run options = (.inr (.error e), options) := by
        rw [parseRound, hx]
        rfl
      rw [rounds_of_inr hr, parseFrom_error hx, prepend_error]

end ShellCore.CommandLine

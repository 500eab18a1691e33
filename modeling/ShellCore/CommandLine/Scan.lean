import ShellCore.CommandLine.Cursor

/-! Reading all options of a command. -/

namespace ShellCore.CommandLine

open Text

variable {args : List String} {spec : OptionSpec} {c : Cursor} {p : Place}

/-- The place lies in the arguments, at or behind the cursor. -/
structure Place.Follows (args : List String) (c : Cursor) (p : Place) : Prop where
  arg : ∃ arg, args[p.index]? = some arg ∧ arg.toList = p.before ++ p.option :: p.rest
  index_le : c.index ≤ p.index
  sub_le : p.index = c.index → c.sub ≤ byteLength p.before

theorem follows_of_entering {index : Nat} (hi : c.index ≤ index)
    (hs : index = c.index → c.sub = 0) (h : entering args spec index = .atOption p) :
    p.Follows args c := by
  unfold entering at h
  split at h
  · cases h
  · rename_i arg ha
    split at h
    · cases h
    · rename_i sign option rest hl
      split at h
      · cases h
        exact ⟨⟨arg, ha, by rw [hl]; rfl⟩, hi, fun he => by simp [hs he]⟩
      · cases h
    · cases h

theorem follows_of_position (h : position args spec c = .atOption p) : p.Follows args c := by
  unfold position at h
  split at h
  · cases h
  · rename_i arg ha
    split at h
    · rename_i h0
      exact follows_of_entering (Nat.le_refl _) (fun _ => h0) h
    · split at h
      · rename_i option rest hd
        cases h
        obtain ⟨hs, hn⟩ := dropBytes?_eq_some hd
        exact ⟨⟨arg, ha, hs⟩, Nat.le_refl _, fun _ => Nat.le_of_eq hn.symm⟩
      · exact follows_of_entering (Nat.le_succ _) (fun he => by omega) h

/-- The arguments from the cursor on, and the bytes of the one that it is in. -/
def measure (args : List String) (c : Cursor) : Nat × Nat :=
  (args.length - c.index, byteLength (args[c.index]?.getD "").toList - c.sub)

theorem lt_of_follows {c' : Cursor} (hf : p.Follows args c)
    (hc : p.index < c'.index ∨ c' = p.after) :
    Prod.Lex (· < ·) (· < ·) (measure args c') (measure args c) := by
  obtain ⟨arg, ha, hl⟩ := hf.arg
  have hi := hf.index_le
  have hp : p.index < args.length := (List.getElem?_eq_some_iff.mp ha).1
  by_cases hlt : c.index < c'.index
  · exact .left _ _ (by show args.length - c'.index < args.length - c.index; omega)
  · have ho := p.option.utf8Size_pos
    rcases hc with hc | rfl
    · omega
    · unfold Place.after at hlt ⊢
      split at hlt <;> rename_i hr
      · exact absurd (Nat.lt_succ_of_le hi) hlt
      · rw [if_neg hr]
        have he : p.index = c.index := by
          have : ¬ c.index < p.index := hlt
          omega
        have hs := hf.sub_le he
        have hb : byteLength arg.toList =
            byteLength p.before + (p.option.utf8Size + byteLength p.rest) := by
          rw [hl]; simp
        have hg : args[c.index]? = some arg := he ▸ ha
        rw [he]
        simp only [measure, hg, Option.getD_some]
        exact .right _ (by omega)

theorem read_option {name : Char} {plus : Bool} {c' : Cursor}
    (h : p.read args spec = (.option name plus, c')) : p.index < c'.index ∨ c' = p.after := by
  unfold Place.read at h
  split at h
  · cases h
  · cases h
    exact .inr rfl
  · split at h
    · cases h
      exact .inl (Nat.lt_succ_self _)
    · split at h
      · cases h
      · split at h
        · cases h
        · cases h
          exact .inl (by simp)

/-- Each option moves the cursor forward. -/
theorem next_option_lt {name : Char} {plus : Bool} {c' : Cursor}
    (h : next args spec c = (.option name plus, c')) :
    Prod.Lex (· < ·) (· < ·) (measure args c') (measure args c) := by
  unfold next at h
  split at h
  · cases h
  · rename_i p hp
    exact lt_of_follows (follows_of_position hp) (read_option h)

/-- An option as it was given. -/
structure Parsed where
  name : Char
  plus : Bool
  argument : Option String
  deriving DecidableEq, Repr

/-- All options from the cursor on, and the index of the first operand. -/
def parseFrom (args : List String) (spec : OptionSpec) (c : Cursor) :
    Except ParseError (List Parsed × Nat) :=
  match h : next args spec c with
  | (.option name plus, c') =>
    have := next_option_lt h
    (parseFrom args spec c').map fun (options, index) =>
      (⟨name, plus, c'.argument.value?⟩ :: options, index)
  | (.done, c') => .ok ([], c'.index)
  | (.error e, _) => .error e
termination_by measure args c
decreasing_by exact this

def parseAll (args : List String) (spec : OptionSpec) : Except ParseError (List Parsed × Nat) :=
  parseFrom args spec {}

end ShellCore.CommandLine

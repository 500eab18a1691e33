import ShellCore.Proofs.CommandLine.Finality

/-! Reading an option in steps that a machine may refuse. None of them is refused. -/

namespace ShellCore.CommandLine

open Text

variable {limit : Nat} {args : List String} {spec : OptionSpec} {c c' : Cursor} {arg : String}
  {s before rest : List Char} {o : Char} {m n : Nat}

/-- What stops a program. -/
inductive Fault
  /-- A sum is not a machine word. -/
  | overflow
  /-- A slice starts behind the end of the text or inside a character. -/
  | slice
  deriving DecidableEq, Repr

/-- The arguments are held by a machine: no number of them and no length of one in bytes is more
than its greatest word. -/
structure Held (limit : Nat) (args : List String) : Prop where
  length_le : args.length ≤ limit
  bytes_le : ∀ arg ∈ args, byteLength arg.toList ≤ limit

/-- The sum, if it is at most the greatest machine word. -/
def checkedAdd (limit m n : Nat) : Except Fault Nat :=
  if m + n ≤ limit then .ok (m + n) else .error .overflow

/-- The text from byte `n` on. -/
def slice (n : Nat) (s : List Char) : Except Fault (List Char) :=
  match dropBytes? n s with
  | some t => .ok t
  | none => .error .slice

/-- Moves to the start of the next argument. -/
def Cursor.advance (limit : Nat) (c : Cursor) : Except Fault Cursor := do
  let index ← checkedAdd limit c.index 1
  return { c with index, sub := 0 }

/-- Moves behind an option that ends before byte `after` of its argument. -/
def Cursor.pass (limit : Nat) (arg : List Char) (after : Nat) (c : Cursor) :
    Except Fault Cursor :=
  if after = byteLength arg then c.advance limit else .ok { c with sub := after }

/-- Reads the argument of an option that ends before byte `after`. The cursor has moved behind
it. -/
def checkedArgument (limit : Nat) (args : List String) (spec : OptionSpec) (arg : List Char)
    (plus : Bool) (o : Char) (after : Nat) (c : Cursor) : Except Fault (Next × Cursor) :=
  if after ≠ byteLength arg then do
    let value ← slice after arg
    let c ← c.advance limit
    return (.option o plus, { c with argument := .given (String.ofList value) })
  else
    let missing : Next × Cursor :=
      (.error (.missingArgument o), { c with invalid := some o, argument := .missing })
    match args[c.index]? with
    | none => return missing
    | some value =>
      if spec.introducesOptions value.toList then return missing
      else do
        let c ← c.advance limit
        return (.option o plus, { c with argument := .given value })

/-- Reads the option at the byte offset of the cursor in the argument. -/
def checkedRead (limit : Nat) (args : List String) (spec : OptionSpec) (arg : List Char)
    (c : Cursor) : Except Fault (Next × Cursor) := do
  let plus := arg.head? == some '+'
  match ← slice c.sub arg with
  | [] => return (.done, ← c.advance limit)
  | o :: _ =>
    let after ← checkedAdd limit c.sub o.utf8Size
    let c ← c.pass limit arg after
    match spec.judge o with
    | .unknown => return (.error (.unknownOption o), { c with invalid := some o })
    | .noArgument => return (.option o plus, c)
    | .takesArgument => checkedArgument limit args spec arg plus o after c

theorem lt_of_advance (ha : args[c.index]? = some arg)
    (h : Cursor.advance limit { index := c.index, sub := c.sub } = .ok c') :
    args.length - c'.index < args.length - c.index := by
  have hlt := (List.getElem?_eq_some_iff.mp ha).1
  unfold Cursor.advance checkedAdd at h
  split at h
  · cases h
    dsimp only
    omega
  · cases h

/-- Reads the next option. A cursor that was left in another argument goes on with the next one. -/
def checkedNext (limit : Nat) (args : List String) (spec : OptionSpec) (c : Cursor) :
    Except Fault (Next × Cursor) :=
  let fresh : Cursor := { index := c.index, sub := c.sub }
  match ha : args[c.index]? with
  | none => .ok (.done, { fresh with sub := 0 })
  | some arg =>
    if c.sub = 0 then
      if arg = "--" then (fresh.advance limit).map (Next.done, ·)
      else if !spec.introducesOptions arg.toList || byteLength arg.toList < 2 then
        .ok (.done, fresh)
      else checkedRead limit args spec arg.toList { fresh with sub := 1 }
    else if byteLength arg.toList ≤ c.sub || (dropBytes? c.sub arg.toList).isNone then
      match hc : fresh.advance limit with
      | .error e => .error e
      | .ok c' =>
        have := lt_of_advance ha hc
        checkedNext limit args spec c'
    else checkedRead limit args spec arg.toList fresh
termination_by args.length - c.index

theorem checkedAdd_eq (h : m + n ≤ limit) : checkedAdd limit m n = .ok (m + n) := if_pos h

/-- Behind an argument there is an index. -/
theorem advance_eq (hl : args.length ≤ limit) (ha : args[c.index]? = some arg) :
    c.advance limit = .ok { c with index := c.index + 1, sub := 0 } := by
  have hlt := (List.getElem?_eq_some_iff.mp ha).1
  rw [Cursor.advance, checkedAdd_eq (by omega)]
  rfl

section

variable (hl : args.length ≤ limit) (ha : args[n]? = some arg)
  (hs : arg.toList = before ++ o :: rest)

include hs

theorem byteLength_of_split :
    byteLength arg.toList = byteLength before + o.utf8Size + byteLength rest := by
  rw [hs]
  simp [Nat.add_assoc]

theorem at_end_iff : byteLength before + o.utf8Size = byteLength arg.toList ↔ rest = [] := by
  rw [← byteLength_eq_zero, byteLength_of_split hs]
  omega

theorem slice_behind : slice (byteLength before + o.utf8Size) arg.toList = .ok rest := by
  rw [slice, hs, dropBytes?_behind]

include hl ha

theorem pass_eq : Cursor.pass limit arg.toList (byteLength before + o.utf8Size)
      { index := n, sub := byteLength before } = .ok (Place.after ⟨n, before, o, rest⟩) := by
  unfold Cursor.pass Place.after
  by_cases hr : rest = []
  · rw [if_pos ((at_end_iff hs).mpr hr), advance_eq hl ha, hr]
    rfl
  · rw [if_neg (mt (at_end_iff hs).mp hr), if_neg (mt List.isEmpty_iff.mp hr)]

theorem checkedArgument_eq (hj : spec.judge o = .takesArgument) :
    checkedArgument limit args spec arg.toList (before.head? == some '+') o
        (byteLength before + o.utf8Size) (Place.after ⟨n, before, o, rest⟩) =
      .ok (Place.read args spec ⟨n, before, o, rest⟩) := by
  unfold checkedArgument Place.read
  rw [hj]
  by_cases hr : rest = []
  · have hn : Place.after ⟨n, before, o, rest⟩ = { index := n + 1 } := by
      rw [Place.after, hr]
      rfl
    rw [if_neg (not_not_intro ((at_end_iff hs).mpr hr)), hn, hr]
    dsimp only [List.isEmpty_nil]
    cases hv : args[n + 1]? with
    | none => rfl
    | some value =>
      dsimp only
      split
      · rfl
      · rw [advance_eq hl hv]
        rfl
  · have he : rest.isEmpty = false := by simpa using hr
    have hn : Place.after ⟨n, before, o, rest⟩ =
        { index := n, sub := byteLength before + o.utf8Size } := by
      rw [Place.after, he]
      rfl
    rw [if_pos (mt (at_end_iff hs).mp hr), slice_behind hs, hn, advance_eq hl ha, he]
    rfl

end

/-- Before an option the machine takes every step. -/
theorem checkedRead_eq (hh : Held limit args) (ha : args[n]? = some arg)
    (hs : arg.toList = before ++ o :: rest) (hb : before ≠ []) :
    checkedRead limit args spec arg.toList { index := n, sub := byteLength before } =
      .ok (Place.read args spec ⟨n, before, o, rest⟩) := by
  have hle := hh.bytes_le arg (List.mem_of_getElem? ha)
  rw [byteLength_of_split hs] at hle
  have hadd : checkedAdd limit (byteLength before) o.utf8Size =
      .ok (byteLength before + o.utf8Size) := checkedAdd_eq (by omega)
  have hslice : slice (byteLength before) arg.toList = .ok (o :: rest) := by
    rw [slice, hs, dropBytes?_byteLength_append]
  have hhead : arg.toList.head? = before.head? := by
    rw [hs]
    cases before with
    | nil => exact absurd rfl hb
    | cons => rfl
  unfold checkedRead
  rw [hhead]
  dsimp only
  rw [hslice]
  dsimp only [bind, Except.bind]
  rw [hadd]
  dsimp only
  rw [pass_eq hh.length_le ha hs]
  dsimp only
  cases hj : spec.judge o with
  | unknown =>
    simp only [Place.read, hj]
    rfl
  | noArgument =>
    simp only [Place.read, hj]
    rfl
  | takesArgument => exact checkedArgument_eq hh.length_le ha hs hj

theorem checkedNext_start (hh : Held limit args) (i : Nat) :
    checkedNext limit args spec { index := i } = .ok (next args spec { index := i }) := by
  have hp : position args spec { index := i } = entering args spec i := position_start rfl
  rw [checkedNext, next, hp]
  split
  · next ha =>
    simp only [entering, ha]
  · next arg ha =>
    rw [if_pos rfl, entering_eq ha]
    split
    · rw [advance_eq hh.length_le ha]
      rfl
    · split
      · rfl
      · next ho =>
        have hg : IsGroup spec arg := Classical.not_not.mp fun hn => ho (not_isGroup_iff.mp hn)
        obtain ⟨sign, o, rest, hl, hs⟩ := exists_of_introduces hg.1 hg.2
        have hr : checkedRead limit args spec arg.toList { index := i, sub := byteLength [sign] } =
            .ok (Place.read args spec ⟨i, [sign], o, rest⟩) :=
          checkedRead_eq hh ha hl (List.cons_ne_nil sign [])
        rw [hs] at hr
        rw [hr, hl]

/-- An option stands at a byte offset exactly if the text goes on there. -/
theorem dropBytes?_eq_some_cons_or (n : Nat) (s : List Char) :
    (byteLength s ≤ n ∨ dropBytes? n s = none) ∧ (∀ o rest, dropBytes? n s ≠ some (o :: rest)) ∨
      ∃ o rest, dropBytes? n s = some (o :: rest) ∧ n < byteLength s := by
  rcases hd : dropBytes? n s with - | - | ⟨o, rest⟩
  · exact .inl ⟨.inr rfl, nofun⟩
  · obtain ⟨hs, hn⟩ := dropBytes?_eq_some hd
    rw [List.append_nil] at hs
    rw [← hs] at hn
    exact .inl ⟨.inl (Nat.le_of_eq hn), nofun⟩
  · obtain ⟨hs, hn⟩ := dropBytes?_eq_some hd
    have ho := o.utf8Size_pos
    have hb := congrArg byteLength hs
    rw [byteLength_append, hn, byteLength_cons] at hb
    exact .inr ⟨o, rest, rfl, by omega⟩

/-- A cursor that was left in another argument goes on with the next one. -/
theorem next_of_stale (hs : c.sub ≠ 0) (ha : args[c.index]? = some arg)
    (hn : ∀ o rest, dropBytes? c.sub arg.toList ≠ some (o :: rest)) :
    next args spec c = next args spec { index := c.index + 1 } := by
  have hstart : position args spec { index := c.index + 1 } = entering args spec (c.index + 1) :=
    position_start rfl
  have hp : position args spec c = position args spec { index := c.index + 1 } := by
    rw [hstart, position, ha]
    dsimp only
    rw [if_neg hs]
    split
    · next hd => exact absurd hd (hn _ _)
    · rfl
  rw [next, next, hp]

/-- The machine takes every step from every cursor. -/
theorem checkedNext_eq (hh : Held limit args) (spec : OptionSpec) (c : Cursor) :
    checkedNext limit args spec c = .ok (next args spec c) := by
  by_cases hs : c.sub = 0
  · have hc : checkedNext limit args spec c = checkedNext limit args spec { index := c.index } := by
      rw [checkedNext, checkedNext, hs]
    have hn : next args spec c = next args spec { index := c.index } := by
      rw [next, next, position_start hs, position_start rfl]
    rw [hc, hn]
    exact checkedNext_start hh c.index
  · rw [checkedNext]
    dsimp only
    split
    · next ha =>
      have hp : position args spec c = .ended c.index := by simp only [position, ha]
      rw [next, hp]
    · next arg ha =>
      rw [if_neg hs]
      rcases dropBytes?_eq_some_cons_or c.sub arg.toList with ⟨hd, hn⟩ | ⟨o, rest, hd, hlt⟩
      · have hadv : Cursor.advance limit { index := c.index, sub := c.sub } =
            .ok { index := c.index + 1 } := advance_eq hh.length_le ha
        rw [if_pos (by simpa using hd), next_of_stale hs ha hn]
        split
        · next he =>
          rw [hadv] at he
          cases he
        · next he =>
          rw [hadv] at he
          cases he
          exact checkedNext_start hh (c.index + 1)
      · obtain ⟨hl, hb⟩ := dropBytes?_eq_some hd
        have hne : takeBytes c.sub arg.toList ≠ [] := by
          intro h
          rw [h] at hb
          exact hs hb.symm
        have hr : checkedRead limit args spec arg.toList
              { index := c.index, sub := byteLength (takeBytes c.sub arg.toList) } =
            .ok (Place.read args spec ⟨c.index, takeBytes c.sub arg.toList, o, rest⟩) :=
          checkedRead_eq hh ha hl hne
        rw [hb] at hr
        rw [if_neg (by simp [hd, hlt]), hr, next, position_within ha hl hne rfl hb.symm]

end ShellCore.CommandLine

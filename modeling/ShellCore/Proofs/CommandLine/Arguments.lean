import ShellCore.CommandLine.Scan

/-! The cursor reads what a recursion over whole arguments reads. -/

namespace ShellCore.CommandLine

open Text

variable {α : Type} {spec : OptionSpec} {plus : Bool} {args consumed operands : List String}
  {arg : String} {options more : List Parsed} {last : Option Char} {before rest : List Char}
  {o : Char} {i : Nat} {c c' : Cursor}

/-- Puts options in front of those that are read after them. -/
def prepend (options : List Parsed) (r : Except ParseError (List Parsed × α)) :
    Except ParseError (List Parsed × α) :=
  r.map (Prod.map (options ++ ·) id)

@[simp] theorem prepend_ok (p : List Parsed × α) :
    prepend options (.ok p) = .ok (options ++ p.1, p.2) := rfl

@[simp] theorem prepend_error (e : ParseError) :
    prepend options (.error e : Except ParseError (List Parsed × α)) = .error e := rfl

theorem prepend_append (r : Except ParseError (List Parsed × α)) :
    prepend (options ++ more) r = prepend options (prepend more r) := by
  cases r with
  | ok p => simp
  | error e => rfl

/-- The options of a cluster, given what follows its sign. The last one may still lack its
argument. -/
def readCluster (spec : OptionSpec) (plus : Bool) :
    List Char → Except ParseError (List Parsed × Option Char)
  | [] => .ok ([], none)
  | o :: rest =>
    match spec.judge o with
    | .unknown => .error (.unknownOption o)
    | .noArgument => prepend [⟨o, plus, none⟩] (readCluster spec plus rest)
    | .takesArgument =>
      if rest.isEmpty then .ok ([], some o)
      else .ok ([⟨o, plus, some (String.ofList rest)⟩], none)

theorem readCluster_unknown (h : spec.judge o = .unknown) :
    readCluster spec plus (o :: rest) = .error (.unknownOption o) := by
  simp only [readCluster, h]

theorem readCluster_noArgument (h : spec.judge o = .noArgument) :
    readCluster spec plus (o :: rest) =
      prepend [⟨o, plus, none⟩] (readCluster spec plus rest) := by
  simp only [readCluster, h]

theorem readCluster_takesArgument (h : spec.judge o = .takesArgument) :
    readCluster spec plus (o :: rest) =
      if rest.isEmpty then .ok ([], some o)
      else .ok ([⟨o, plus, some (String.ofList rest)⟩], none) := by
  simp only [readCluster, h]

def startsWithPlus (arg : String) : Bool := arg.toList.head? == some '+'

/-- The options at the start of the arguments, and the operands after them. -/
def readArguments (spec : OptionSpec) : List String → Except ParseError (List Parsed × List String)
  | [] => .ok ([], [])
  | arg :: args =>
    if arg = "--" then .ok ([], args)
    else if !spec.introducesOptions arg.toList || byteLength arg.toList < 2 then
      .ok ([], arg :: args)
    else
      match readCluster spec (startsWithPlus arg) arg.toList.tail with
      | .error e => .error e
      | .ok (options, none) => prepend options (readArguments spec args)
      | .ok (options, some o) =>
        match args with
        | [] => .error (.missingArgument o)
        | value :: args =>
          if spec.introducesOptions value.toList then .error (.missingArgument o)
          else prepend (options ++ [⟨o, startsWithPlus arg, some value⟩]) (readArguments spec args)

/-- Goes on behind a cluster in the argument at the index. -/
def parseAfter (args : List String) (spec : OptionSpec) (plus : Bool) (i : Nat) :
    List Parsed × Option Char → Except ParseError (List Parsed × Nat)
  | (options, none) => prepend options (parseFrom args spec { index := i + 1 })
  | (options, some o) =>
    match args[i + 1]? with
    | none => .error (.missingArgument o)
    | some value =>
      if spec.introducesOptions value.toList then .error (.missingArgument o)
      else prepend (options ++ [⟨o, plus, some value⟩]) (parseFrom args spec { index := i + 2 })

theorem parseAfter_prepend (r : Except ParseError (List Parsed × Option Char)) :
    (prepend options r).bind (parseAfter args spec plus i) =
      prepend options (r.bind (parseAfter args spec plus i)) := by
  rcases r with e | ⟨more, last⟩
  · rfl
  · rw [prepend_ok]
    cases last with
    | none => exact prepend_append _
    | some o =>
      simp only [Except.bind, parseAfter]
      split
      · rfl
      · split
        · rfl
        · rw [List.append_assoc, prepend_append]

theorem parseFrom_done (h : next args spec c = (.done, c')) :
    parseFrom args spec c = .ok ([], c'.index) := by
  rw [parseFrom]
  split <;> simp_all

theorem parseFrom_error {e : ParseError} (h : next args spec c = (.error e, c')) :
    parseFrom args spec c = .error e := by
  rw [parseFrom]
  split <;> simp_all

theorem parseFrom_option (h : next args spec c = (.option o plus, c')) :
    parseFrom args spec c =
      prepend [⟨o, plus, c'.argument.value?⟩] (parseFrom args spec c') := by
  rw [parseFrom]
  split
  · rename_i he
    rw [h] at he
    cases he
    rfl
  · simp_all
  · simp_all

/-- Only the place that the cursor stands at matters. -/
theorem parseFrom_congr (hi : c.index = c'.index) (hs : c.sub = c'.sub) :
    parseFrom args spec c = parseFrom args spec c' := by
  have hn : next args spec c = next args spec c' := by simp only [next, position, hi, hs]
  rcases hr : next args spec c' with ⟨found, d⟩
  rw [hr] at hn
  cases found with
  | option name plus => rw [parseFrom_option hn, parseFrom_option hr]
  | done => rw [parseFrom_done hn, parseFrom_done hr]
  | error e => rw [parseFrom_error hn, parseFrom_error hr]

theorem position_within (ha : args[i]? = some arg) (hl : arg.toList = before ++ o :: rest)
    (hb : before ≠ []) (hi : c.index = i) (hs : c.sub = byteLength before) :
    position args spec c = .atOption ⟨i, before, o, rest⟩ := by
  have hpos : byteLength before ≠ 0 := mt byteLength_eq_zero.mp hb
  unfold position
  rw [hi, ha]
  dsimp only
  rw [if_neg (by rw [hs]; exact hpos), hs, hl, dropBytes?_byteLength_append,
    takeBytes_byteLength_append]

/-- From a place inside an argument, the cursor reads the rest of its cluster character by
character. -/
theorem parseFrom_cluster (ha : args[i]? = some arg) (hl : arg.toList = before ++ o :: rest)
    (hb : before ≠ []) (hp : position args spec c = .atOption ⟨i, before, o, rest⟩) :
    parseFrom args spec c =
      (readCluster spec (before.head? == some '+') (o :: rest)).bind
        (parseAfter args spec (before.head? == some '+') i) := by
  induction rest generalizing before o c with
  | nil =>
    have hn : next args spec c = Place.read args spec ⟨i, before, o, []⟩ := by rw [next, hp]
    cases hj : spec.judge o with
    | unknown =>
      simp only [Place.read, hj] at hn
      rw [parseFrom_error hn, readCluster_unknown hj]
      rfl
    | noArgument =>
      simp only [Place.read, hj] at hn
      rw [parseFrom_option hn, readCluster_noArgument hj]
      rfl
    | takesArgument =>
      simp only [Place.read, hj, List.isEmpty_nil, Bool.not_true, Bool.false_eq_true,
        if_false] at hn
      rw [readCluster_takesArgument hj]
      simp only [List.isEmpty_nil, if_true, Except.bind, parseAfter]
      cases hv : args[i + 1]? with
      | none =>
        simp only [hv] at hn
        exact parseFrom_error hn
      | some value =>
        simp only [hv] at hn
        dsimp only
        by_cases hint : spec.introducesOptions value.toList
        · rw [if_pos hint] at hn
          rw [parseFrom_error hn, if_pos hint]
        · rw [if_neg hint] at hn
          rw [parseFrom_option hn, if_neg hint]
          exact congrArg (prepend _) (parseFrom_congr rfl rfl)
  | cons o' rest ih =>
    have hn : next args spec c = Place.read args spec ⟨i, before, o, o' :: rest⟩ := by
      rw [next, hp]
    cases hj : spec.judge o with
    | unknown =>
      simp only [Place.read, hj] at hn
      rw [parseFrom_error hn, readCluster_unknown hj]
      rfl
    | noArgument =>
      simp only [Place.read, hj] at hn
      have hl' : arg.toList = (before ++ [o]) ++ o' :: rest := by simp [hl]
      have hp' : position args spec (Place.after ⟨i, before, o, o' :: rest⟩) =
          .atOption ⟨i, before ++ [o], o', rest⟩ :=
        position_within ha hl' (by simp) rfl (by simp [Place.after])
      have hh : (before ++ [o]).head? = before.head? := by
        cases before with
        | nil => exact absurd rfl hb
        | cons => rfl
      have hrest := ih hl' (by simp) hp'
      rw [hh] at hrest
      rw [parseFrom_option hn, hrest, readCluster_noArgument hj]
      exact (parseAfter_prepend _).symm
    | takesArgument =>
      simp only [Place.read, hj] at hn
      rw [parseFrom_option hn, readCluster_takesArgument hj]
      exact congrArg (prepend _) (parseFrom_congr rfl rfl)

/-- An argument that is entered has a sign, which is one byte long, and something behind it. -/
theorem entering_eq (ha : args[i]? = some arg) :
    entering args spec i =
      if arg = "--" then .ended (i + 1)
      else if !spec.introducesOptions arg.toList || byteLength arg.toList < 2 then .ended i
      else match arg.toList with
        | sign :: o :: rest => .atOption ⟨i, [sign], o, rest⟩
        | _ => .ended i := by
  have hd : arg = "--" ↔ arg.toList = ['-', '-'] := by
    rw [← String.toList_inj]
    rfl
  simp only [entering, ha, hd]
  rcases arg.toList with - | ⟨sign, - | ⟨o, rest⟩⟩
  · simp
  · simp
  · have hs := sign.utf8Size_pos
    have ho := o.utf8Size_pos
    have hb : ¬ byteLength (sign :: o :: rest) < 2 := by
      simp only [byteLength_cons]
      omega
    by_cases hdd : sign :: o :: rest = ['-', '-']
    · cases hdd
      rfl
    · rw [if_neg hdd]
      split
      · rename_i h
        exact absurd h hdd
      · rename_i h
        cases h
        simp only [hb, decide_false, Bool.or_false]
        cases spec.introducesOptions (sign :: o :: rest) <;> rfl
      · rename_i h
        exact (h _ _ _ rfl).elim

theorem next_ended {j : Nat} (hs : c.sub = 0) (ha : args[c.index]? = some arg)
    (he : entering args spec c.index = .ended j) : parseFrom args spec c = .ok ([], j) := by
  have hn : next args spec c = (.done, { index := j }) := by simp [next, position, ha, hs, he]
  exact parseFrom_done hn

theorem drop_eq_cons {rest : List String} (h : args.drop i = arg :: rest) :
    args[i]? = some arg ∧ args.drop (i + 1) = rest ∧ args.length = i + 1 + rest.length := by
  have hl := congrArg List.length h
  simp only [List.length_drop, List.length_cons] at hl
  refine ⟨?_, ?_, by omega⟩
  · rw [← List.head?_drop, h]
    rfl
  · rw [← List.tail_drop, h]
    rfl

/-- Tells the operands by the index of the first one among `n` arguments. -/
def locate (n : Nat) (r : Except ParseError (List Parsed × List String)) :
    Except ParseError (List Parsed × Nat) :=
  r.map fun (options, operands) => (options, n - operands.length)

@[simp] theorem locate_ok (n : Nat) (p : List Parsed × List String) :
    locate n (.ok p) = .ok (p.1, n - p.2.length) := rfl

@[simp] theorem locate_error (n : Nat) (e : ParseError) : locate n (.error e) = .error e := rfl

theorem locate_prepend (n : Nat) (r : Except ParseError (List Parsed × List String)) :
    locate n (prepend options r) = prepend options (locate n r) := by
  cases r <;> rfl

theorem introduces_cons_iff {sign : Char} :
    spec.introducesOptions (sign :: rest) ↔ sign = '-' ∧ rest ≠ [] ∨ sign = '+' ∧ spec.plus := by
  unfold OptionSpec.introducesOptions
  split
  · next h =>
    cases h
    simp
  · next h =>
    cases h
    simp
  · next hm hp =>
    have hm : sign ≠ '-' := fun h => hm rest (by rw [h])
    have hp : sign ≠ '+' := fun h => hp rest (by rw [h])
    simp [hm, hp]

/-- An argument that has options is a sign and at least one character behind it. -/
theorem exists_of_introduces {s : List Char} (hi : spec.introducesOptions s)
    (hb : 2 ≤ byteLength s) :
    ∃ sign o rest, s = sign :: o :: rest ∧ byteLength [sign] = 1 := by
  rcases s with - | ⟨sign, s⟩
  · cases hi
  · have hs : byteLength [sign] = 1 := by
      rcases introduces_cons_iff.mp hi with ⟨rfl, -⟩ | ⟨rfl, -⟩ <;> rfl
    rcases s with - | ⟨o, rest⟩
    · omega
    · exact ⟨sign, o, rest, rfl, hs⟩

theorem parseFrom_entered (ha : args[i]? = some arg) (hd : arg ≠ "--")
    (ho : ¬ (!spec.introducesOptions arg.toList || byteLength arg.toList < 2)) :
    parseFrom args spec { index := i } =
      (readCluster spec (startsWithPlus arg) arg.toList.tail).bind
        (parseAfter args spec (startsWithPlus arg) i) := by
  have he : entering args spec i = _ := entering_eq ha
  rw [if_neg hd, if_neg ho] at he
  obtain ⟨hi, hb⟩ : spec.introducesOptions arg.toList ∧ 2 ≤ byteLength arg.toList := by
    rw [Bool.or_eq_true, not_or, decide_eq_true_iff, Nat.not_lt, Bool.not_eq_true',
      Bool.not_eq_false] at ho
    exact ho
  obtain ⟨sign, o, rest, hl, -⟩ := exists_of_introduces hi hb
  simp only [hl] at he
  have hp : position args spec { index := i } = .atOption ⟨i, [sign], o, rest⟩ := by
    simp [position, ha, he]
  rw [startsWithPlus, hl]
  have hl : arg.toList = [sign] ++ o :: rest := hl
  have hc := parseFrom_cluster ha hl (by simp) hp
  exact hc

/-- From the start of an argument, the cursor reads what the recursion reads. -/
theorem parseFrom_eq_readArguments {rest : List String} (hr : args.drop i = rest)
    (hi : i ≤ args.length) :
    parseFrom args spec { index := i } = locate args.length (readArguments spec rest) := by
  fun_induction readArguments spec rest generalizing i with
  | case1 =>
    have hl := congrArg List.length hr
    simp only [List.length_drop, List.length_nil] at hl
    have ha : args[i]? = none := List.getElem?_eq_none (by omega)
    have hn : next args spec { index := i } = (.done, { index := i }) := by
      simp [next, position, ha]
    rw [parseFrom_done hn, locate_ok]
    simp only [List.length_nil, Except.ok.injEq, Prod.mk.injEq, true_and]
    omega
  | case2 rest =>
    obtain ⟨ha, -, hl⟩ := drop_eq_cons hr
    rw [next_ended rfl ha (by rw [entering_eq ha, if_pos rfl]), locate_ok]
    simp only [Except.ok.injEq, Prod.mk.injEq, true_and]
    omega
  | case3 arg rest hd ho =>
    obtain ⟨ha, -, hl⟩ := drop_eq_cons hr
    rw [next_ended rfl ha (by rw [entering_eq ha, if_neg hd, if_pos ho]), locate_ok]
    simp only [List.length_cons, Except.ok.injEq, Prod.mk.injEq, true_and]
    omega
  | case4 arg rest hd ho e hc =>
    obtain ⟨ha, -, -⟩ := drop_eq_cons hr
    rw [parseFrom_entered ha hd ho, hc]
    rfl
  | case5 arg rest hd ho options hc ih =>
    obtain ⟨ha, ht, hl⟩ := drop_eq_cons hr
    rw [parseFrom_entered ha hd ho, hc, locate_prepend, ← ih ht (by omega)]
    rfl
  | case6 arg hd ho options o hc =>
    obtain ⟨ha, -, hl⟩ := drop_eq_cons hr
    have hn : args[i + 1]? = none := List.getElem?_eq_none (by rw [hl]; simp)
    rw [parseFrom_entered ha hd ho, hc]
    simp [Except.bind, parseAfter, hn]
  | case7 arg hd ho options o hc value rest hv =>
    obtain ⟨ha, ht, -⟩ := drop_eq_cons hr
    obtain ⟨hav, -, -⟩ := drop_eq_cons ht
    rw [parseFrom_entered ha hd ho, hc]
    simp [Except.bind, parseAfter, hav, hv]
  | case8 arg hd ho options o hc value rest hv ih =>
    obtain ⟨ha, ht, hl⟩ := drop_eq_cons hr
    obtain ⟨hav, ht', -⟩ := drop_eq_cons ht
    rw [parseFrom_entered ha hd ho, hc, locate_prepend, ← ih ht' (by simp [hl])]
    simp [Except.bind, parseAfter, hav, hv]

/-- The options of a cluster are spelt by the characters after its sign and the arguments that
follow. -/
inductive ClusterSpells (spec : OptionSpec) (plus : Bool) :
    List Parsed → List Char → List String → Prop
  | nil : ClusterSpells spec plus [] [] []
  | noArgument {o : Char} {options : List Parsed} {chars : List Char} {following : List String}
    (hj : spec.judge o = .noArgument) (h : ClusterSpells spec plus options chars following) :
    ClusterSpells spec plus (⟨o, plus, none⟩ :: options) (o :: chars) following
  | attached {o : Char} {value : List Char} (hj : spec.judge o = .takesArgument)
    (hv : value ≠ []) :
    ClusterSpells spec plus [⟨o, plus, some (String.ofList value)⟩] (o :: value) []
  | separate {o : Char} {value : String} (hj : spec.judge o = .takesArgument)
    (hv : ¬ spec.introducesOptions value.toList) :
    ClusterSpells spec plus [⟨o, plus, some value⟩] [o] [value]

/-- The arguments spell the options: each character of them belongs to a single sign, option or
option argument. -/
inductive Spells (spec : OptionSpec) : List Parsed → List String → Prop
  | nil : Spells spec [] []
  | cluster {arg : String} {options more : List Parsed} {following args : List String}
    (ho : spec.introducesOptions arg.toList) (hd : arg ≠ "--")
    (hc : ClusterSpells spec (startsWithPlus arg) options arg.toList.tail following)
    (h : Spells spec more args) :
    Spells spec (options ++ more) (arg :: (following ++ args))

theorem exists_of_prepend {r : Except ParseError (List Parsed × α)} {found : List Parsed} {a : α}
    (h : prepend options r = .ok (found, a)) :
    ∃ more, r = .ok (more, a) ∧ found = options ++ more := by
  rcases r with e | ⟨more, a⟩
  · cases h
  · cases h
    exact ⟨more, rfl, rfl⟩

/-- What a cluster leaves out is the argument of its last option. -/
theorem clusterSpells_of_readCluster {chars : List Char}
    (h : readCluster spec plus chars = .ok (options, last)) :
    match last with
    | none => ClusterSpells spec plus options chars []
    | some o => ∀ value, ¬ spec.introducesOptions value.toList →
      ClusterSpells spec plus (options ++ [⟨o, plus, some value⟩]) chars [value] := by
  induction chars generalizing options with
  | nil =>
    cases h
    exact .nil
  | cons o rest ih =>
    cases hj : spec.judge o with
    | unknown =>
      rw [readCluster_unknown hj] at h
      cases h
    | noArgument =>
      rw [readCluster_noArgument hj] at h
      obtain ⟨more, hm, rfl⟩ := exists_of_prepend h
      have hs := ih hm
      cases last with
      | none => exact .noArgument hj hs
      | some o' => exact fun value hv => .noArgument hj (hs value hv)
    | takesArgument =>
      rw [readCluster_takesArgument hj] at h
      cases rest with
      | nil =>
        cases h
        exact fun value hv => .separate hj hv
      | cons r rest =>
        cases h
        exact .attached hj (by simp)

/-- The arguments spell the options up to the operands, or up to `--` before the operands. -/
def SpellsUpTo (spec : OptionSpec) (options : List Parsed) (args operands : List String) : Prop :=
  ∃ consumed, Spells spec options consumed ∧
    (args = consumed ++ operands ∨ args = consumed ++ "--" :: operands)

theorem SpellsUpTo.cluster {following : List String} (ho : spec.introducesOptions arg.toList)
    (hd : arg ≠ "--")
    (hc : ClusterSpells spec (startsWithPlus arg) options arg.toList.tail following)
    (h : SpellsUpTo spec more args operands) :
    SpellsUpTo spec (options ++ more) (arg :: (following ++ args)) operands := by
  obtain ⟨consumed, hs, ha⟩ := h
  refine ⟨_, .cluster ho hd hc hs, ?_⟩
  rcases ha with rfl | rfl
  · exact .inl (by simp)
  · exact .inr (by simp)

theorem spells_of_readArguments (h : readArguments spec args = .ok (options, operands)) :
    SpellsUpTo spec options args operands := by
  have hint : ∀ {arg : String},
      ¬ (!spec.introducesOptions arg.toList || byteLength arg.toList < 2) = true →
        spec.introducesOptions arg.toList := by
    intro arg ho
    cases hi : spec.introducesOptions arg.toList with
    | true => rfl
    | false => simp [hi] at ho
  fun_induction readArguments spec args generalizing options with
  | case1 =>
    cases h
    exact ⟨[], .nil, .inl rfl⟩
  | case2 rest =>
    cases h
    exact ⟨[], .nil, .inr rfl⟩
  | case3 arg rest hd ho =>
    cases h
    exact ⟨[], .nil, .inl rfl⟩
  | case4 => cases h
  | case5 arg rest hd ho opts hc ih =>
    obtain ⟨more, hm, rfl⟩ := exists_of_prepend h
    have hs := SpellsUpTo.cluster (hint ho) hd (clusterSpells_of_readCluster hc) (ih hm)
    exact hs
  | case6 => cases h
  | case7 => cases h
  | case8 arg hd ho opts o hc value rest hv ih =>
    obtain ⟨more, hm, rfl⟩ := exists_of_prepend h
    exact .cluster (hint ho) hd (clusterSpells_of_readCluster hc value hv) (ih hm)

/-- The cursor reads what the recursion over whole arguments reads: the same options, or the same
error. The index that it ends at is that of the first operand, and the arguments before it spell
the options. -/
theorem parseAll_eq_readArguments (spec : OptionSpec) (command : String) (args : List String) :
    parseAll (command :: args) spec = locate (args.length + 1) (readArguments spec args) ∧
    ∀ options index, parseAll (command :: args) spec = .ok (options, index) →
      index ≤ (command :: args).length ∧
      readArguments spec args = .ok (options, (command :: args).drop index) ∧
      ∃ consumed, Spells spec options consumed ∧
        ((command :: args).take index = command :: consumed ∨
          (command :: args).take index = command :: (consumed ++ ["--"])) := by
  have heq : parseAll (command :: args) spec = locate (args.length + 1) (readArguments spec args) :=
    parseFrom_eq_readArguments rfl (by simp)
  refine ⟨heq, fun options index h => ?_⟩
  rw [heq] at h
  rcases hr : readArguments spec args with e | ⟨found, operands⟩
  · rw [hr] at h
    cases h
  · rw [hr] at h
    cases h
    obtain ⟨consumed, hs, ha⟩ := spells_of_readArguments hr
    have hf : ∃ front, args = front ++ operands ∧
        (front = consumed ∨ front = consumed ++ ["--"]) := by
      rcases ha with ha | ha
      · exact ⟨consumed, ha, .inl rfl⟩
      · exact ⟨consumed ++ ["--"], by simp [ha], .inr rfl⟩
    obtain ⟨front, rfl, hf⟩ := hf
    have hi : (front ++ operands).length + 1 - operands.length = front.length + 1 := by
      simp only [List.length_append]
      omega
    rw [hi]
    refine ⟨by simp, by simp, consumed, hs, ?_⟩
    rcases hf with rfl | rfl
    · exact .inl (by simp)
    · exact .inr (by rw [List.take_succ_cons, List.take_left])

/-- A cluster that ends with an option argument, an argument in the next word, and a lone sign as
the first operand. -/
theorem clusters_eq_readArguments :
    let spec : OptionSpec := ⟨['a', 'b', ':'], false, true⟩
    let found : List Parsed := [⟨'a', false, none⟩, ⟨'b', false, some "é"⟩, ⟨'b', true, some ""⟩]
    parseAll ["cmd", "-abé", "+b", "", "+", "-a"] spec = .ok (found, 4) ∧
      ∃ consumed, Spells spec found consumed ∧
        (["cmd", "-abé", "+b", ""] = "cmd" :: consumed ∨
          ["cmd", "-abé", "+b", ""] = "cmd" :: (consumed ++ ["--"])) := by
  intro spec found
  have h := parseAll_eq_readArguments spec "cmd" ["-abé", "+b", "", "+", "-a"]
  have hp : parseAll ["cmd", "-abé", "+b", "", "+", "-a"] spec = .ok (found, 4) :=
    h.1.trans rfl
  exact ⟨hp, (h.2 found 4 hp).2.2⟩

end ShellCore.CommandLine

import Mathlib.Data.List.Infix
import ShellCore.Arith.Token
import ShellCore.Proofs.Text.Utf8

/-! Expressions in brackets of their own. Byte by byte, the end of one is found where the brackets
in it are balanced. -/

namespace ShellCore.Arith

open Text

variable {depth depth' index : Nat}

section

variable {α : Type} [DecidableEq α] {opening closing a : α} {s : List α}

/-- The text closes the brackets that it opens and `depth` more. No prefix of it closes more than
are open. -/
structure IsBalanced (opening closing : α) (depth : Nat) (s : List α) : Prop where
  count_eq : depth + s.count opening = s.count closing
  count_le (p : List α) (hp : p <+: s) : p.count closing ≤ depth + p.count opening

instance : Decidable (IsBalanced opening closing depth s) :=
  decidable_of_iff (depth + s.count opening = s.count closing ∧
      ∀ p ∈ s.inits, p.count closing ≤ depth + p.count opening) <| by
    constructor
    · rintro ⟨heq, hle⟩
      exact ⟨heq, fun p hp => hle p ((List.mem_inits p s).mpr hp)⟩
    · rintro ⟨heq, hle⟩
      exact ⟨heq, fun p hp => hle p ((List.mem_inits p s).mp hp)⟩

theorem isBalanced_nil : IsBalanced opening closing depth [] ↔ depth = 0 := by
  constructor
  · rintro ⟨heq, -⟩
    simpa using heq
  · rintro rfl
    refine ⟨rfl, fun p hp => ?_⟩
    rw [List.prefix_nil.mp hp]
    exact Nat.le_refl _

/-- Behind the first character the text goes on with as many open brackets as that one leaves. -/
theorem isBalanced_cons_iff (h : depth' + [a].count closing = depth + [a].count opening) :
    IsBalanced opening closing depth (a :: s) ↔ IsBalanced opening closing depth' s := by
  have hcons : ∀ (x : α) (p : List α), (a :: p).count x = [a].count x + p.count x := by
    intro x p
    rw [← List.singleton_append, List.count_append]
  constructor
  · rintro ⟨heq, hle⟩
    rw [hcons opening s, hcons closing s] at heq
    refine ⟨by omega, fun p hp => ?_⟩
    have hp := hle (a :: p) (List.cons_prefix_cons.mpr ⟨rfl, hp⟩)
    rw [hcons opening p, hcons closing p] at hp
    omega
  · rintro ⟨heq, hle⟩
    refine ⟨?_, fun p hp => ?_⟩
    · rw [hcons opening s, hcons closing s]
      omega
    · rcases List.prefix_cons_iff.mp hp with rfl | ⟨p, rfl, hp'⟩
      · exact Nat.zero_le _
      · have hp' := hle p hp'
        rw [hcons opening p, hcons closing p]
        omega

theorem isBalanced_opening (h : opening ≠ closing) :
    IsBalanced opening closing depth (opening :: s) ↔
      IsBalanced opening closing (depth + 1) s :=
  isBalanced_cons_iff (by simp [h])

theorem isBalanced_closing (h : opening ≠ closing) :
    IsBalanced opening closing (depth + 1) (closing :: s) ↔
      IsBalanced opening closing depth s :=
  isBalanced_cons_iff (by simp [h.symm])

theorem isBalanced_other (ho : a ≠ opening) (hc : a ≠ closing) :
    IsBalanced opening closing depth (a :: s) ↔ IsBalanced opening closing depth s :=
  isBalanced_cons_iff (by simp [ho, hc])

theorem not_isBalanced_closing (h : opening ≠ closing) :
    ¬ IsBalanced opening closing 0 (closing :: s) := by
  rintro ⟨-, hle⟩
  have hp := hle [closing] (List.cons_prefix_cons.mpr ⟨rfl, List.nil_prefix⟩)
  simp [h.symm] at hp

end

/-- How many brackets are open after the text, unless it closes one that is not. -/
def openAfter (opening closing : Char) : Nat → List Char → Option Nat
  | depth, [] => some depth
  | depth, c :: s =>
    if c = opening then openAfter opening closing (depth + 1) s
    else if c = closing then
      match depth with
      | 0 => none
      | depth + 1 => openAfter opening closing depth s
    else openAfter opening closing depth s

/-- Counting what is open, character by character, tells whether the text is balanced. -/
theorem openAfter_eq_some_zero_iff {opening closing : Char} {s : List Char}
    (h : opening ≠ closing) :
    openAfter opening closing depth s = some 0 ↔ IsBalanced opening closing depth s := by
  induction s generalizing depth with
  | nil => rw [openAfter, Option.some.injEq, isBalanced_nil]
  | cons c s ih =>
    rw [openAfter.eq_def]
    dsimp only
    by_cases ho : c = opening
    · subst ho
      rw [if_pos rfl, ih, isBalanced_opening h]
    · rw [if_neg ho]
      by_cases hc : c = closing
      · subst hc
        rw [if_pos rfl]
        cases depth with
        | zero => exact iff_of_false nofun (not_isBalanced_closing h)
        | succ depth => exact ih.trans (isBalanced_closing h).symm
      · rw [if_neg hc, ih, isBalanced_other ho hc]

/-- The brackets that an expression can have of its own. -/
inductive Brackets
  | parens
  | square
  deriving DecidableEq, Repr

namespace Brackets

variable {b : Brackets} {c : Char} {i n : Nat} {body s t : List Char}
  {bytes : List UInt8} {v : TokenValue}

def opening : Brackets → Char
  | parens => '('
  | square => '['

def closing : Brackets → Char
  | parens => ')'
  | square => ']'

/-- What stands before the expression. -/
def opener : Brackets → List Char
  | parens => ['$', '(', '(']
  | square => ['$', '[']

/-- What has to follow the bracket that closes the expression. -/
def behind : Brackets → List Char
  | parens => [')']
  | square => []

/-- What stands behind the expression. -/
def closer (b : Brackets) : List Char := b.closing :: b.behind

def enclose (b : Brackets) (body : List Char) : List Char := b.opener ++ (body ++ b.closer)

/-- The text up to the closer, when `depth` are open inside. -/
def before? : Brackets → Nat → List Char → Option (List Char)
  | parens => beforeParens?
  | square => beforeBracket?

/-- The offset, counted from `index`, of the byte that closes the expression, when `depth` are open
inside. It is the first one that closes none of these, and the rest of the closer has to follow. -/
def closingIndex? (b : Brackets) (depth index : Nat) : List UInt8 → Option Nat
  | [] => none
  | byte :: bytes =>
    if byte = b.opening.toUInt8 then b.closingIndex? (depth + 1) (index + 1) bytes
    else if byte = b.closing.toUInt8 then
      match depth with
      | 0 => if (utf8 b.behind).isPrefixOf bytes then some index else none
      | depth + 1 => b.closingIndex? depth (index + 1) bytes
    else b.closingIndex? depth (index + 1) bytes

/-- The bytes are balanced up to the index, and the closer stands there. -/
structure ClosesAt (b : Brackets) (bytes : List UInt8) (i : Nat) : Prop where
  balanced : IsBalanced b.opening.toUInt8 b.closing.toUInt8 0 (bytes.take i)
  closer : utf8 b.closer <+: bytes.drop i

theorem isAscii_opening (b : Brackets) : IsAscii b.opening := by cases b <;> decide

theorem isAscii_closing (b : Brackets) : IsAscii b.closing := by cases b <;> decide

theorem opening_ne_closing (b : Brackets) : b.opening ≠ b.closing := by cases b <;> decide

theorem toUInt8_opening_ne_closing (b : Brackets) : b.opening.toUInt8 ≠ b.closing.toUInt8 := by
  cases b <;> decide

theorem utf8_closer (b : Brackets) : utf8 b.closer = b.closing.toUInt8 :: utf8 b.behind :=
  b.isAscii_closing.utf8_cons b.behind

/-- A byte inside the expression, behind which `depth'` brackets are open. -/
theorem exists_index_cons_iff {byte : UInt8}
    (hstep : depth' + [byte].count b.closing.toUInt8 = depth + [byte].count b.opening.toUInt8)
    (hdepth : byte = b.closing.toUInt8 → depth ≠ 0) :
    (∃ n, i = index + 1 + n ∧
        IsBalanced b.opening.toUInt8 b.closing.toUInt8 depth' (bytes.take n) ∧
        utf8 b.closer <+: bytes.drop n) ↔
      ∃ n, i = index + n ∧
        IsBalanced b.opening.toUInt8 b.closing.toUInt8 depth ((byte :: bytes).take n) ∧
        utf8 b.closer <+: (byte :: bytes).drop n := by
  constructor
  · rintro ⟨n, rfl, hb, hc⟩
    refine ⟨n + 1, by omega, ?_, hc⟩
    rw [List.take_succ_cons]
    exact (isBalanced_cons_iff hstep).mpr hb
  · rintro ⟨n, rfl, hb, hc⟩
    cases n with
    | zero =>
      rw [List.drop_zero, utf8_closer, List.cons_prefix_cons] at hc
      rw [List.take_zero, isBalanced_nil] at hb
      exact absurd hb (hdepth hc.1.symm)
    | succ n =>
      rw [List.take_succ_cons] at hb
      exact ⟨n, by omega, (isBalanced_cons_iff hstep).mp hb, hc⟩

theorem closingIndex?_eq_some_iff : b.closingIndex? depth index bytes = some i ↔
    ∃ n, i = index + n ∧
      IsBalanced b.opening.toUInt8 b.closing.toUInt8 depth (bytes.take n) ∧
      utf8 b.closer <+: bytes.drop n := by
  have hne := b.toUInt8_opening_ne_closing
  induction bytes generalizing depth index with
  | nil => simp [closingIndex?, utf8_closer]
  | cons byte bytes ih =>
    rw [closingIndex?.eq_def]
    dsimp only
    by_cases ho : byte = b.opening.toUInt8
    · rw [if_pos ho]
      exact ih.trans (exists_index_cons_iff (by simp [ho, hne]) fun hc =>
        absurd (ho.symm.trans hc) hne)
    · rw [if_neg ho]
      by_cases hc : byte = b.closing.toUInt8
      · rw [if_pos hc]
        cases depth with
        | zero =>
          subst hc
          dsimp only
          constructor
          · intro h
            split at h
            · next hp =>
              cases h
              refine ⟨0, rfl, isBalanced_nil.mpr rfl, ?_⟩
              rw [utf8_closer]
              exact List.cons_prefix_cons.mpr ⟨rfl, List.isPrefixOf_iff_prefix.mp hp⟩
            · cases h
          · rintro ⟨n, rfl, hb, hp⟩
            cases n with
            | zero =>
              rw [utf8_closer] at hp
              exact if_pos (List.isPrefixOf_iff_prefix.mpr (List.cons_prefix_cons.mp hp).2)
            | succ n => exact absurd hb (not_isBalanced_closing hne)
        | succ depth =>
          exact ih.trans (exists_index_cons_iff (by simp [hc, hne.symm]) fun _ =>
            depth.succ_ne_zero)
      · rw [if_neg hc]
        exact ih.trans (exists_index_cons_iff (by simp [ho, hc]) fun h => absurd h hc)

/-- The search finds the one index at which the bytes before it are balanced and the closer
stands. -/
theorem closingIndex?_eq_some_iff_closesAt :
    b.closingIndex? 0 0 bytes = some i ↔ b.ClosesAt bytes i := by
  rw [closingIndex?_eq_some_iff]
  constructor
  · rintro ⟨n, rfl, hb, hc⟩
    rw [Nat.zero_add]
    exact ⟨hb, hc⟩
  · rintro ⟨hb, hc⟩
    exact ⟨i, (Nat.zero_add i).symm, hb, hc⟩

theorem ClosesAt.unique {j : Nat} (hi : b.ClosesAt bytes i) (hj : b.ClosesAt bytes j) : i = j := by
  have hi := closingIndex?_eq_some_iff_closesAt.mpr hi
  rw [closingIndex?_eq_some_iff_closesAt.mpr hj] at hi
  exact (Option.some.inj hi).symm

theorem before?_nil (b : Brackets) (depth : Nat) : b.before? depth [] = none := by cases b <;> rfl

theorem before?_cons (b : Brackets) (depth : Nat) (c : Char) (s : List Char) :
    b.before? depth (c :: s) =
      if c = b.opening then (b.before? (depth + 1) s).map (c :: ·)
      else if c = b.closing then
        match depth with
        | 0 => if b.behind.isPrefixOf s then some [] else none
        | depth + 1 => (b.before? depth s).map (c :: ·)
      else (b.before? depth s).map (c :: ·) := by
  cases b with
  | parens =>
    cases depth with
    | zero =>
      have hp : [')'].isPrefixOf s ↔ s.head? = some ')' := by
        cases s with
        | nil => simp
        | cons d s => simpa [List.isPrefixOf_cons_cons] using eq_comm
      simp only [before?, beforeParens?, opening, closing, behind, hp]
    | succ depth => rfl
  | square => rfl

/-- A character inside the expression, behind which `depth'` brackets are open. -/
theorem map_cons_eq_some_iff {inner : Option (List Char)}
    (hinner : ∀ {r}, inner = some r ↔
      r ++ b.closer <+: s ∧ IsBalanced b.opening b.closing depth' r)
    (hstep : depth' + [c].count b.closing = depth + [c].count b.opening)
    (hdepth : c = b.closing → depth ≠ 0) :
    inner.map (c :: ·) = some body ↔
      body ++ b.closer <+: c :: s ∧ IsBalanced b.opening b.closing depth body := by
  cases body with
  | nil =>
    simp only [Option.map_eq_some_iff, reduceCtorEq, and_false, exists_false, List.nil_append,
      false_iff]
    rintro ⟨hp, hb⟩
    rw [closer, List.cons_prefix_cons] at hp
    exact hdepth hp.1.symm (isBalanced_nil.mp hb)
  | cons a r =>
    rw [List.cons_append, List.cons_prefix_cons, Option.map_eq_some_iff]
    constructor
    · rintro ⟨_, hr, ⟨⟩⟩
      obtain ⟨hp, hb⟩ := hinner.mp hr
      exact ⟨⟨rfl, hp⟩, (isBalanced_cons_iff hstep).mpr hb⟩
    · rintro ⟨⟨rfl, hp⟩, hb⟩
      exact ⟨r, hinner.mpr ⟨hp, (isBalanced_cons_iff hstep).mp hb⟩, rfl⟩

/-- The expression ends at the first bracket that closes none inside it. -/
theorem before?_eq_some_iff (b : Brackets) : b.before? depth s = some body ↔
    body ++ b.closer <+: s ∧ IsBalanced b.opening b.closing depth body := by
  have hne := b.opening_ne_closing
  induction s generalizing depth body with
  | nil => simp [before?_nil, closer]
  | cons c s ih =>
    rw [before?_cons]
    by_cases ho : c = b.opening
    · rw [if_pos ho]
      exact map_cons_eq_some_iff ih (by simp [ho, hne]) fun hc => absurd (ho.symm.trans hc) hne
    · rw [if_neg ho]
      by_cases hc : c = b.closing
      · rw [if_pos hc]
        cases depth with
        | zero =>
          subst hc
          rw [closer]
          dsimp only
          constructor
          · intro h
            split at h
            · next hp =>
              cases h
              exact ⟨List.cons_prefix_cons.mpr ⟨rfl, List.isPrefixOf_iff_prefix.mp hp⟩,
                isBalanced_nil.mpr rfl⟩
            · cases h
          · rintro ⟨hp, hb⟩
            cases body with
            | nil => exact if_pos (List.isPrefixOf_iff_prefix.mpr (List.cons_prefix_cons.mp hp).2)
            | cons a r =>
              obtain ⟨rfl, -⟩ := List.cons_prefix_cons.mp hp
              exact absurd hb (not_isBalanced_closing hne)
        | succ depth =>
          exact map_cons_eq_some_iff ih (by simp [hc, hne.symm]) fun _ => depth.succ_ne_zero
      · rw [if_neg hc]
        exact map_cons_eq_some_iff ih (by simp [ho, hc]) fun h => absurd h hc

theorem isPrefixOf_utf8_behind (b : Brackets) (s : List Char) :
    (utf8 b.behind).isPrefixOf (utf8 s) = b.behind.isPrefixOf s := by
  cases b with
  | square => rfl
  | parens =>
    have hparen : IsAscii ')' := by decide
    cases s with
    | nil => rfl
    | cons c s =>
      by_cases hc : c = ')'
      · subst hc
        rw [hparen.utf8_cons]
        rfl
      · have hmem := hparen.not_mem_encode hc
        have hne := String.utf8EncodeChar_ne_nil (c := c)
        rw [utf8_cons]
        cases he : String.utf8EncodeChar c with
        | nil => exact absurd he hne
        | cons byte bytes =>
          rw [he] at hmem
          have hbyte := (List.ne_and_not_mem_of_not_mem_cons hmem).1
          change [')'.toUInt8].isPrefixOf (byte :: bytes ++ utf8 s) = [')'].isPrefixOf (c :: s)
          rw [List.cons_append, List.isPrefixOf_cons_cons, List.isPrefixOf_cons_cons,
            beq_eq_false_iff_ne.mpr hbyte, beq_eq_false_iff_ne.mpr (Ne.symm hc), Bool.false_and,
            Bool.false_and]

/-- Bytes that are no brackets are passed over. -/
theorem closingIndex?_append {l : List UInt8}
    (h : b.opening.toUInt8 ∉ l ∧ b.closing.toUInt8 ∉ l) (depth index : Nat)
    (bytes : List UInt8) :
    b.closingIndex? depth index (l ++ bytes) = b.closingIndex? depth (index + l.length) bytes := by
  induction l generalizing index with
  | nil => rfl
  | cons byte l ih =>
    obtain ⟨ho, ho'⟩ := List.ne_and_not_mem_of_not_mem_cons h.1
    obtain ⟨hc, hc'⟩ := List.ne_and_not_mem_of_not_mem_cons h.2
    rw [List.cons_append, closingIndex?.eq_def]
    dsimp only
    rw [if_neg ho.symm, if_neg hc.symm, ih ⟨ho', hc'⟩, List.length_cons, Nat.add_assoc,
      Nat.add_comm 1]

/-- The index is the length of the text that is found before the closer. -/
theorem closingIndex?_utf8 (b : Brackets) (depth index : Nat) (s : List Char) :
    b.closingIndex? depth index (utf8 s) = (b.before? depth s).map (index + byteLength ·) := by
  induction s generalizing depth index with
  | nil =>
    rw [before?_nil]
    rfl
  | cons c s ih =>
    have hmap : ∀ t : Option (List Char),
        (t.map (c :: ·)).map (index + byteLength ·) =
          t.map (index + c.utf8Size + byteLength ·) := by
      intro t
      rw [Option.map_map]
      refine congrArg (Option.map · t) (funext fun body => ?_)
      simp only [Function.comp, byteLength_cons, Nat.add_assoc]
    rw [before?_cons]
    by_cases ho : c = b.opening
    · subst ho
      rw [if_pos rfl, b.isAscii_opening.utf8_cons, closingIndex?.eq_def]
      dsimp only
      rw [if_pos rfl, ih, hmap, b.isAscii_opening.utf8Size_eq]
    · rw [if_neg ho]
      by_cases hc : c = b.closing
      · subst hc
        rw [if_pos rfl, b.isAscii_closing.utf8_cons, closingIndex?.eq_def]
        dsimp only
        rw [if_neg b.toUInt8_opening_ne_closing.symm, if_pos rfl]
        cases depth with
        | zero =>
          dsimp only
          rw [isPrefixOf_utf8_behind]
          split <;> rfl
        | succ depth =>
          dsimp only
          rw [ih, hmap, b.isAscii_closing.utf8Size_eq]
      · rw [if_neg hc, hmap, utf8_cons, closingIndex?_append
          ⟨b.isAscii_opening.not_mem_encode ho, b.isAscii_closing.not_mem_encode hc⟩, ih,
          String.length_utf8EncodeChar]

theorem before?_closed (h : IsBalanced b.opening b.closing 0 body) (rest : List Char) :
    b.before? 0 (body ++ (b.closer ++ rest)) = some body :=
  b.before?_eq_some_iff.mpr ⟨⟨rest, List.append_assoc _ _ _⟩, h⟩

/-- An expression ends where it does whatever follows. -/
theorem before?_append (h : b.before? depth s = some body) (t : List Char) :
    b.before? depth (s ++ t) = some body := by
  obtain ⟨hp, hb⟩ := b.before?_eq_some_iff.mp h
  exact b.before?_eq_some_iff.mpr ⟨hp.trans (List.prefix_append s t), hb⟩

theorem before?_of_append (h : b.before? depth (s ++ t) = some body)
    (hl : (body ++ b.closer).length ≤ s.length) : b.before? depth s = some body := by
  obtain ⟨hp, hb⟩ := b.before?_eq_some_iff.mp h
  have hp' := List.prefix_of_prefix_length_le hp (List.prefix_append s t) hl
  exact b.before?_eq_some_iff.mpr ⟨hp', hb⟩

/-- The lexeme at an opener is all up to the closer of the expression, or of the text if there is
none. -/
theorem lexDollar_opener (b : Brackets) (s : List Char) :
    lexDollar (b.opener.tail ++ s) = match b.before? 0 s with
      | some body => (.ok (.nested body (byteLength b.opener)),
          (body ++ b.closer).length + b.opener.length)
      | none => (.error .unclosedExpansion, (b.opener ++ s).length) := by
  cases b with
  | parens =>
    change lexDollar ('(' :: '(' :: s) = match beforeParens? 0 s with | some _ => _ | none => _
    rw [lexDollar]
    cases beforeParens? 0 s with
    | none => rfl
    | some body =>
      dsimp only
      rw [List.length_append]
      rfl
  | square =>
    change lexDollar ('[' :: s) = match beforeBracket? 0 s with | some _ => _ | none => _
    rw [lexDollar]
    cases beforeBracket? 0 s with
    | none => rfl
    | some body =>
      dsimp only
      rw [List.length_append]
      rfl

theorem lexDollar_opener_append (b : Brackets) (t : List Char)
    (h : lexDollar (b.opener.tail ++ s) = (.ok v, n)) :
    lexDollar (b.opener.tail ++ (s ++ t)) = (.ok v, n) ∧ n ≤ s.length + b.opener.length := by
  rw [lexDollar_opener] at h ⊢
  cases hb : b.before? 0 s with
  | none =>
    rw [hb] at h
    cases h
  | some body =>
    have hl := (b.before?_eq_some_iff.mp hb).1.length_le
    rw [hb] at h
    rw [before?_append hb]
    cases h
    exact ⟨rfl, Nat.add_le_add_right hl _⟩

theorem lexDollar_opener_of_append (b : Brackets)
    (h : lexDollar (b.opener.tail ++ (s ++ t)) = (.ok v, n)) (hn : n = s.length + b.opener.length) :
    lexDollar (b.opener.tail ++ s) = (.ok v, n) := by
  rw [lexDollar_opener] at h ⊢
  cases hb : b.before? 0 (s ++ t) with
  | none =>
    rw [hb] at h
    cases h
  | some body =>
    rw [hb] at h
    injection h with hv hlen
    rw [before?_of_append hb (by omega)]
    exact Prod.ext hv hlen

end Brackets

theorem beforeParens?_eq_some_iff {s body : List Char} : beforeParens? depth s = some body ↔
    body ++ [')', ')'] <+: s ∧ openAfter '(' ')' depth body = some 0 := by
  rw [openAfter_eq_some_zero_iff (by decide)]
  exact Brackets.parens.before?_eq_some_iff

theorem beforeBracket?_eq_some_iff {s body : List Char} : beforeBracket? depth s = some body ↔
    body ++ [']'] <+: s ∧ openAfter '[' ']' depth body = some 0 := by
  rw [openAfter_eq_some_zero_iff (by decide)]
  exact Brackets.square.before?_eq_some_iff

end ShellCore.Arith

import Mathlib.Data.List.TakeWhile
import ShellCore.DirectoryStack

/-! The texts that describe a stack of directories, and the first line at which another text goes
wrong. -/

namespace ShellCore.DirectoryStack

open Text

variable {s : DirectoryStack} {c : Char} {blanks line text : List Char}
  {ls : List (List Char)} {said : Option String} {paths : List String} {n : Nat}
  {e : DirectoryError}

/-- Takes away a carriage return at the end of a line. -/
def dropReturn (line : List Char) : List Char :=
  if line.getLast? = some '\r' then line.dropLast else line

/-- The lines of a text. A last line that no line feed ends is kept as it is, unless it is empty. -/
inductive IsLines : List Char → List (List Char) → Prop
  | nil : IsLines [] []
  | last {line : List Char} (h : '\n' ∉ line) (hn : line ≠ []) : IsLines line [line]
  | line {line text : List Char} {ls : List (List Char)} (h : '\n' ∉ line) (ht : IsLines text ls) :
    IsLines (line ++ '\n' :: text) (dropReturn line :: ls)

/-- A blank line and a comment say nothing, and any other line has to say a path. -/
inductive Says : List Char → Option String → Prop
  | blank {blanks : List Char} (h : ∀ b ∈ blanks, isBlank b) : Says blanks none
  | comment {blanks : List Char} (h : ∀ b ∈ blanks, isBlank b) (text : List Char) :
    Says (blanks ++ '#' :: text) none
  | push {blanks path : List Char} (h : ∀ b ∈ blanks, isBlank b) (hp : path ≠ []) :
    Says (blanks ++ (keyword ++ path)) (some (String.ofList path))

/-- The lines say the paths, in the same order. -/
inductive SaysAll : List (List Char) → List String → Prop
  | nil : SaysAll [] []
  | ignored {line : List Char} {ls : List (List Char)} {paths : List String}
    (h : Says line none) (hs : SaysAll ls paths) : SaysAll (line :: ls) paths
  | push {line : List Char} {ls : List (List Char)} {path : String} {paths : List String}
    (h : Says line (some path)) (hs : SaysAll ls paths) : SaysAll (line :: ls) (path :: paths)

theorem dropReturn_cons (h : line ≠ []) : dropReturn (c :: line) = c :: dropReturn line := by
  rw [dropReturn, dropReturn, List.getLast?_cons_of_ne_nil h, List.dropLast_cons_of_ne_nil h]
  split <;> rfl

theorem lines_cons (hn : c ≠ '\n') (hr : c = '\r' → text.head? ≠ some '\n') :
    lines (c :: text) = match lines text with
      | [] => [[c]]
      | line :: ls => (c :: line) :: ls := by
  rw [lines.eq_def]
  split
  · next h => cases h
  · next h =>
    cases h
    exact absurd rfl (hr rfl)
  · next h =>
    cases h
    exact absurd rfl hn
  · next h =>
    cases h
    rfl

theorem head?_ne_of_not_mem (h : '\n' ∉ line) (hl : line ≠ []) (text : List Char) :
    (line ++ text).head? ≠ some '\n' := by
  cases line with
  | nil => exact absurd rfl hl
  | cons c line =>
    rw [List.cons_append, List.head?_cons, Ne, Option.some.injEq]
    exact fun hc => h (hc ▸ List.mem_cons_self)

theorem lines_append (h : '\n' ∉ line) (text : List Char) :
    lines (line ++ '\n' :: text) = dropReturn line :: lines text := by
  induction line with
  | nil => rfl
  | cons c line ih =>
    obtain ⟨hc, hl⟩ := not_or.mp (mt List.mem_cons.mpr h)
    by_cases hline : line = []
    · subst hline
      by_cases hr : c = '\r'
      · subst hr
        rfl
      · rw [List.singleton_append, lines_cons (Ne.symm hc) fun he => absurd he hr]
        simp [dropReturn, hr, lines]
    · rw [List.cons_append, lines_cons (Ne.symm hc) fun _ => head?_ne_of_not_mem hl hline _, ih hl,
        dropReturn_cons hline]

theorem lines_of_not_mem (h : '\n' ∉ line) (hn : line ≠ []) : lines line = [line] := by
  induction line with
  | nil => exact absurd rfl hn
  | cons c line ih =>
    obtain ⟨hc, hl⟩ := not_or.mp (mt List.mem_cons.mpr h)
    have hhead : line.head? ≠ some '\n' := fun hh => hl (List.mem_of_head? hh)
    rw [lines_cons (Ne.symm hc) fun _ => hhead]
    by_cases hline : line = []
    · subst hline
      rfl
    · rw [ih hl hline]

theorem IsLines.lines_eq (h : IsLines text ls) : lines text = ls := by
  induction h with
  | nil => rfl
  | last h hn => exact lines_of_not_mem h hn
  | line h _ ih => rw [lines_append h, ih]

theorem exists_isLines (text : List Char) : ∃ ls, IsLines text ls := by
  induction text with
  | nil => exact ⟨[], .nil⟩
  | cons c text ih =>
    obtain ⟨ls, h⟩ := ih
    by_cases hc : c = '\n'
    · subst hc
      exact ⟨_, .line List.not_mem_nil h⟩
    · have hcons : ∀ {line : List Char}, '\n' ∉ line → '\n' ∉ c :: line :=
        fun hl hm => (List.mem_cons.mp hm).elim (fun he => hc he.symm) hl
      cases h with
      | nil => exact ⟨_, .last (hcons List.not_mem_nil) (List.cons_ne_nil c [])⟩
      | last h hn => exact ⟨_, .last (hcons h) (List.cons_ne_nil c _)⟩
      | line h ht => exact ⟨_, .line (hcons h) ht⟩

theorem isLines_iff : IsLines text ls ↔ ls = lines text := by
  constructor
  · exact fun h => h.lines_eq.symm
  · rintro rfl
    obtain ⟨ls, h⟩ := exists_isLines text
    rwa [h.lines_eq]

theorem exists_trimStart (line : List Char) :
    ∃ blanks, (∀ b ∈ blanks, isBlank b) ∧ line = blanks ++ trimStart line :=
  ⟨line.takeWhile isBlank, fun _ hb => List.mem_takeWhile_imp hb,
    List.takeWhile_append_dropWhile.symm⟩

/-- What the parser makes of a line that says nothing or a path. -/
def Line.ofSaid : Option String → Line
  | none => .ignored
  | some path => .push path.toList

theorem Line.of_append (h : ∀ b ∈ blanks, isBlank b) (text : List Char) :
    Line.of (blanks ++ text) = Line.of text := by
  rw [Line.of, Line.of, trimStart_append h]

theorem Line.of_keyword (path : List Char) :
    Line.of (keyword ++ path) = if path = [] then .bad else .push path := by
  have ht : trimStart (keyword ++ path) = keyword ++ path := trimStart_cons (by decide) _
  rw [Line.of, ht]
  cases path with
  | nil => rfl
  | cons c path => simp [keyword]

theorem Says.of_eq (h : Says line said) : Line.of line = .ofSaid said := by
  cases h with
  | blank h =>
    have hb := Line.of_append h []
    rw [List.append_nil] at hb
    exact hb
  | comment h text =>
    have ht : trimStart ('#' :: text) = '#' :: text := trimStart_cons (by decide) text
    rw [Line.of_append h, Line.of, ht]
    rfl
  | push h hp =>
    rw [Line.of_append h, Line.of_keyword, if_neg hp, Line.ofSaid, String.toList_ofList]

/-- The parser ignores what says nothing, pushes what says a path, and refuses all else. -/
theorem Line.of_cases (line : List Char) :
    (∃ said, Says line said) ∨ Line.of line = .bad := by
  obtain ⟨blanks, hb, hl⟩ := exists_trimStart line
  unfold Line.of
  generalize trimStart line = text at hl ⊢
  subst hl
  dsimp only
  split
  · next hi =>
    refine .inl ⟨none, ?_⟩
    rcases text with - | ⟨c, text⟩
    · rw [List.append_nil]
      exact .blank hb
    · obtain rfl : c = '#' := by simpa using hi
      exact .comment hb text
  · split
    · next hk =>
      obtain ⟨hp, hlt⟩ := Bool.and_eq_true_iff.mp hk
      obtain ⟨path, rfl⟩ := List.isPrefixOf_iff_prefix.mp hp
      refine .inl ⟨_, .push hb ?_⟩
      rintro rfl
      simp at hlt
    · exact .inr rfl

theorem Line.of_bad (h : ∀ said, ¬ Says line said) : Line.of line = .bad :=
  (Line.of_cases line).resolve_left fun ⟨said, hs⟩ => h said hs

theorem saysAll_iff : (∃ paths, SaysAll ls paths) ↔ ∀ line ∈ ls, ∃ said, Says line said := by
  constructor
  · rintro ⟨paths, h⟩
    induction h with
    | nil => exact List.forall_mem_nil _
    | ignored h _ ih | push h _ ih => exact List.forall_mem_cons.mpr ⟨⟨_, h⟩, ih⟩
  · intro h
    induction ls with
    | nil => exact ⟨[], .nil⟩
    | cons line ls ih =>
      obtain ⟨⟨said, hl⟩, hs⟩ := List.forall_mem_cons.mp h
      obtain ⟨paths, hp⟩ := ih hs
      cases said with
      | none => exact ⟨paths, .ignored hl hp⟩
      | some path => exact ⟨path :: paths, .push hl hp⟩

/-- The line with the number, counted from one, is the first that does not say what it may. -/
def FirstBad (ls : List (List Char)) (n : Nat) (line : List Char) : Prop :=
  ∃ before after, ls = before ++ line :: after ∧ n = before.length + 1 ∧
    (∀ l ∈ before, ∃ said, Says l said) ∧ ∀ said, ¬ Says line said

theorem saysAll_or_firstBad (ls : List (List Char)) :
    (∃ paths, SaysAll ls paths) ∨ ∃ n line, FirstBad ls n line := by
  induction ls with
  | nil => exact .inl ⟨[], .nil⟩
  | cons line ls ih =>
    by_cases hl : ∃ said, Says line said
    · rw [saysAll_iff] at ih ⊢
      rcases ih with hs | ⟨n, bad, before, after, rfl, rfl, hb, hbad⟩
      · exact .inl (List.forall_mem_cons.mpr ⟨hl, hs⟩)
      · exact .inr ⟨_, bad, line :: before, after, rfl, rfl, List.forall_mem_cons.mpr ⟨hl, hb⟩,
          hbad⟩
    · exact .inr ⟨1, line, [], ls, rfl, rfl, List.forall_mem_nil _, not_exists.mp hl⟩

/-- Each path is pushed on those of the lines before it. -/
theorem pushLines_append (h : SaysAll ls paths) (s : DirectoryStack) (n : Nat)
    (rest : List (List Char)) :
    pushLines s n (ls ++ rest) = pushLines ⟨paths.reverse ++ s.paths⟩ (n + ls.length) rest := by
  induction h generalizing s n with
  | nil => rfl
  | ignored h _ ih =>
    rw [List.cons_append, pushLines, h.of_eq]
    dsimp only [Line.ofSaid]
    rw [ih, List.length_cons, Nat.add_right_comm, Nat.add_assoc]
  | push h _ ih =>
    rw [List.cons_append, pushLines, h.of_eq]
    dsimp only [Line.ofSaid]
    rw [ih, String.ofList_toList, List.length_cons, Nat.add_right_comm, Nat.add_assoc,
      List.reverse_cons, List.append_assoc]
    rfl

theorem pushLines_of_saysAll (h : SaysAll ls paths) :
    pushLines empty 1 ls = .ok ⟨paths.reverse⟩ := by
  have hp := pushLines_append h empty 1 []
  rw [List.append_nil] at hp
  rw [hp, pushLines, empty, List.append_nil]

theorem pushLines_of_firstBad (h : FirstBad ls n line) :
    pushLines empty 1 ls = .error (.badLine n (String.ofList line)) := by
  obtain ⟨before, after, rfl, rfl, hb, hbad⟩ := h
  obtain ⟨paths, hs⟩ := saysAll_iff.mpr hb
  rw [pushLines_append hs, pushLines, Line.of_bad hbad]
  dsimp only
  rw [Nat.add_comm]

theorem ofText_eq_ok_iff {t : String} :
    ofText t = .ok s ↔ ∃ paths, SaysAll (lines t.toList) paths ∧ s.paths = paths.reverse := by
  constructor
  · intro h
    rcases saysAll_or_firstBad (lines t.toList) with ⟨paths, hs⟩ | ⟨n, line, hb⟩
    · cases h.symm.trans (pushLines_of_saysAll hs)
      exact ⟨paths, hs, rfl⟩
    · cases h.symm.trans (pushLines_of_firstBad hb)
  · rintro ⟨paths, hs, hp⟩
    rw [ofText, pushLines_of_saysAll hs, ← hp]

theorem ofText_eq_error_iff {t : String} :
    ofText t = .error e ↔
      ∃ n line, FirstBad (lines t.toList) n line ∧ e = .badLine n (String.ofList line) := by
  constructor
  · intro h
    rcases saysAll_or_firstBad (lines t.toList) with ⟨paths, hs⟩ | ⟨n, line, hb⟩
    · cases h.symm.trans (pushLines_of_saysAll hs)
    · cases h.symm.trans (pushLines_of_firstBad hb)
      exact ⟨n, line, hb, rfl⟩
  · rintro ⟨n, line, hb, rfl⟩
    exact pushLines_of_firstBad hb

/-- A text is a stack exactly if each of its lines says nothing or a path. The paths are those of
the lines, the last one on top. Otherwise the first line that is different is told, as it is. -/
theorem ofText_accepts_grammar (t : String) :
    ∃ ls, (∀ ls', IsLines t.toList ls' ↔ ls' = ls) ∧
      ((∃ s, ofText t = .ok s) ↔ ∀ line ∈ ls, ∃ said, Says line said) ∧
      (∀ s, ofText t = .ok s ↔ ∃ paths, SaysAll ls paths ∧ s.paths = paths.reverse) ∧
      ∀ e, ofText t = .error e ↔
        ∃ n line, FirstBad ls n line ∧ e = .badLine n (String.ofList line) := by
  refine ⟨lines t.toList, fun ls' => isLines_iff, ?_, fun s => ofText_eq_ok_iff,
    fun e => ofText_eq_error_iff⟩
  rw [← saysAll_iff]
  constructor
  · rintro ⟨s, h⟩
    obtain ⟨paths, hs, -⟩ := ofText_eq_ok_iff.mp h
    exact ⟨paths, hs⟩
  · rintro ⟨paths, hs⟩
    exact ⟨⟨paths.reverse⟩, ofText_eq_ok_iff.mpr ⟨paths, hs, rfl⟩⟩

end ShellCore.DirectoryStack

import ShellCore.Proofs.DirectoryStack.Grammar

/-! Which stacks are read back from their text. -/

namespace ShellCore.DirectoryStack

open Text

variable {line text : List Char} {ls : List (List Char)} {path : String}
  {paths said : List String} {s : DirectoryStack}

/-- The line that pushes a directory. -/
def pushLine (path : String) : List Char := keyword ++ path.toList

theorem toList_toText (s : DirectoryStack) :
    s.toText.toList = s.paths.reverse.flatMap fun path => pushLine path ++ ['\n'] := by
  rw [toText, String.toList_ofList]
  rfl

/-- If no path has a line feed, the lines are those that were written, each without a carriage
return at its end. -/
theorem isLines_flatMap (h : ∀ path ∈ paths, '\n' ∉ path.toList) :
    IsLines (paths.flatMap fun path => pushLine path ++ ['\n'])
      (paths.map fun path => dropReturn (pushLine path)) := by
  induction paths with
  | nil => exact .nil
  | cons path paths ih =>
    obtain ⟨hp, hs⟩ := List.forall_mem_cons.mp h
    rw [List.flatMap_cons, List.append_assoc, List.map_cons]
    refine .line (fun hm => ?_) (ih hs)
    rcases List.mem_append.mp hm with hk | hm
    · exact absurd hk (by decide)
    · exact hp hm

theorem mem_of_mem_dropReturn {c : Char} (h : c ∈ dropReturn line) : c ∈ line := by
  unfold dropReturn at h
  split at h
  · exact (List.dropLast_sublist line).subset h
  · exact h

theorem IsLines.not_mem (h : IsLines text ls) : ∀ line ∈ ls, '\n' ∉ line := by
  induction h with
  | nil => exact List.forall_mem_nil _
  | last h _ => exact List.forall_mem_singleton.mpr h
  | line h _ ih => exact List.forall_mem_cons.mpr ⟨fun hm => h (mem_of_mem_dropReturn hm), ih⟩

/-- A path that a line says is a part of it, and not empty. -/
theorem Says.path_ne (h : Says line (some path)) :
    path ≠ "" ∧ ∀ c ∈ path.toList, c ∈ line := by
  cases h with
  | push _ hp =>
    rw [String.toList_ofList]
    exact ⟨fun he => hp (String.ofList_eq_empty_iff.mp he), fun c hc => by simp [hc]⟩

theorem SaysAll.path_ne (h : SaysAll ls paths) (hl : ∀ line ∈ ls, '\n' ∉ line) :
    ∀ path ∈ paths, path ≠ "" ∧ '\n' ∉ path.toList := by
  induction h with
  | nil => exact List.forall_mem_nil _
  | ignored _ _ ih => exact ih (List.forall_mem_cons.mp hl).2
  | push h _ ih =>
    obtain ⟨hline, hs⟩ := List.forall_mem_cons.mp hl
    obtain ⟨hne, hc⟩ := h.path_ne
    exact List.forall_mem_cons.mpr ⟨⟨hne, fun hm => hline (hc _ hm)⟩, ih hs⟩

theorem dropReturn_append (hn : text ≠ []) (line : List Char) :
    dropReturn (line ++ text) = line ++ dropReturn text := by
  induction line with
  | nil => rfl
  | cons c line ih => rw [List.cons_append, dropReturn_cons (by simp [hn]), ih, List.cons_append]

theorem dropReturn_eq_self_iff : dropReturn line = line ↔ line.getLast? ≠ some '\r' := by
  unfold dropReturn
  split
  · next h =>
    refine iff_of_false (fun he => ?_) (not_not_intro h)
    have hn : line ≠ [] := by
      rintro rfl
      cases h
    have hl := congrArg List.length he
    have hpos := List.length_pos_iff.mpr hn
    rw [List.length_dropLast] at hl
    omega
  · next h => exact iff_of_true rfl h

/-- What follows the keyword is the path. -/
theorem eq_of_says_keyword {said : Option String} (h : Says (keyword ++ text) said) :
    said = some (String.ofList text) := by
  have he := h.of_eq
  rw [Line.of_keyword] at he
  split at he
  · cases said <;> cases he
  · cases said with
    | none => cases he
    | some path =>
      rw [Line.ofSaid, Line.push.injEq] at he
      rw [he, String.ofList_toList]

/-- The paths that are read back from the lines of others have no carriage return at the end. -/
theorem eq_of_saysAll_pushLine (hn : ∀ path ∈ paths, path ≠ "")
    (h : SaysAll (paths.map fun path => dropReturn (pushLine path)) said) :
    said = paths.map fun path => String.ofList (dropReturn path.toList) := by
  induction paths generalizing said with
  | nil =>
    cases h
    rfl
  | cons path paths ih =>
    obtain ⟨hp, hs⟩ := List.forall_mem_cons.mp hn
    have hd : dropReturn (pushLine path) = keyword ++ dropReturn path.toList :=
      dropReturn_append (fun he => hp (String.toList_eq_nil_iff.mp he)) keyword
    rw [List.map_cons, hd] at h
    rw [List.map_cons]
    cases h with
    | ignored h _ => cases eq_of_says_keyword h
    | push h hrest =>
      cases eq_of_says_keyword h
      rw [ih hs hrest]

theorem saysAll_pushLine (h : ∀ path ∈ paths, path ≠ "" ∧ path.toList.getLast? ≠ some '\r') :
    SaysAll (paths.map fun path => dropReturn (pushLine path)) paths := by
  induction paths with
  | nil => exact .nil
  | cons path paths ih =>
    obtain ⟨⟨hn, hr⟩, hs⟩ := List.forall_mem_cons.mp h
    have hne : path.toList ≠ [] := fun he => hn (String.toList_eq_nil_iff.mp he)
    have hd : dropReturn (pushLine path) = keyword ++ path.toList := by
      rw [pushLine, dropReturn_append hne, dropReturn_eq_self_iff.mpr hr]
    have hsays := Says.push (List.forall_mem_nil (isBlank · = true)) hne
    rw [String.ofList_toList, List.nil_append, ← hd] at hsays
    exact .push hsays (ih hs)

/-- The path can stand in a line. -/
def FitsLine (path : String) : Prop :=
  path ≠ "" ∧ '\n' ∉ path.toList ∧ path.toList.getLast? ≠ some '\r'

theorem lines_toText (h : ∀ path ∈ s.paths, '\n' ∉ path.toList) :
    lines s.toText.toList = s.paths.reverse.map fun path => dropReturn (pushLine path) := by
  rw [toList_toText]
  exact (isLines_flatMap fun path hm => h path (List.mem_reverse.mp hm)).lines_eq

/-- A stack is read back from its text exactly if each of its paths can stand in a line. -/
theorem ofText_toText_iff (s : DirectoryStack) :
    ofText s.toText = .ok s ↔ ∀ path ∈ s.paths, FitsLine path := by
  rw [ofText_eq_ok_iff]
  constructor
  · rintro ⟨paths, hs, hp⟩
    -- No line has a line feed, so what is read from the lines has none.
    have hne : ∀ path ∈ s.paths, path ≠ "" ∧ '\n' ∉ path.toList := by
      intro path hm
      rw [hp] at hm
      exact hs.path_ne (isLines_iff.mpr rfl).not_mem path (List.mem_reverse.mp hm)
    rw [lines_toText fun path hm => (hne path hm).2] at hs
    have hmap := eq_of_saysAll_pushLine
      (fun path hm => (hne path (List.mem_reverse.mp hm)).1) hs
    intro path hm
    refine ⟨(hne path hm).1, (hne path hm).2, dropReturn_eq_self_iff.mp ?_⟩
    have hid : s.paths.reverse.map id =
        s.paths.reverse.map fun path => String.ofList (dropReturn path.toList) := by
      rw [List.map_id, ← hmap, hp, List.reverse_reverse]
    have hpath : path = String.ofList (dropReturn path.toList) :=
      List.map_inj_left.mp hid path (List.mem_reverse.mpr hm)
    have hl := congrArg String.toList hpath
    rw [String.toList_ofList] at hl
    exact hl.symm
  · intro h
    refine ⟨s.paths.reverse, ?_, (List.reverse_reverse _).symm⟩
    rw [lines_toText fun path hm => (h path hm).2.1]
    refine saysAll_pushLine fun path hm => ?_
    obtain ⟨hn, -, hr⟩ := h path (List.mem_reverse.mp hm)
    exact ⟨hn, hr⟩

/-- A path with a line feed may become two. -/
example : ofText (toText ⟨["a\npushd b"]⟩) = .ok ⟨["b", "a"]⟩ := by decide

end ShellCore.DirectoryStack

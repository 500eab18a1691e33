import Mathlib.Logic.ExistsUnique
import ShellCore.SortedLines

/-! Lines that are added one by one are in the order of their bytes, as if sorted all at once. -/

namespace ShellCore

theorem bytes_injective {a b : String} (h : bytes a = bytes b) : a = b :=
  String.toByteArray_inj.mp (ByteArray.ext (Array.toList_inj.mp h))

namespace SortedLines

variable {line : String} {l l' lines all : List String} {i j : Nat} {s : SortedLines}

def InOrder (l : List String) : Prop := l.Pairwise fun a b => bytes a ≤ bytes b

/-- Lines have only one order. -/
theorem InOrder.eq_of_perm (h : InOrder l) (h' : InOrder l') (hp : l.Perm l') : l = l' :=
  hp.eq_of_pairwise (fun _ _ _ _ hab hba => bytes_injective (List.le_antisymm hab hba)) h h'

theorem perm_insertLine (line : String) (l : List String) :
    (insertLine line l).Perm (line :: l) := by
  induction l with
  | nil => exact .refl _
  | cons a l ih =>
    rw [insertLine]
    split
    · exact (ih.cons a).trans (.swap line a l)
    · exact .refl _

theorem inOrder_insertLine (h : InOrder l) (line : String) : InOrder (insertLine line l) := by
  induction l with
  | nil => exact List.pairwise_singleton _ line
  | cons a l ih =>
    obtain ⟨ha, hl⟩ := List.pairwise_cons.mp h
    rw [insertLine]
    split
    · rename_i hle
      refine List.pairwise_cons.mpr ⟨fun b hb => ?_, ih hl⟩
      rcases List.mem_cons.mp ((perm_insertLine line l).mem_iff.mp hb) with rfl | hb
      · exact hle
      · exact ha b hb
    · rename_i hle
      have hlt : bytes line ≤ bytes a := (List.le_total _ _).resolve_right hle
      refine List.pairwise_cons.mpr ⟨fun b hb => ?_, h⟩
      rcases List.mem_cons.mp hb with rfl | hb
      · exact hlt
      · exact List.le_trans hlt (ha b hb)

theorem perm_addAll (l : SortedLines) (lines : List String) :
    (l.addAll lines).lines.Perm (lines ++ l.lines) := by
  induction lines generalizing l with
  | nil => exact .refl _
  | cons line lines ih =>
    refine (ih (l.add line)).trans ?_
    exact ((perm_insertLine line l.lines).append_left lines).trans List.perm_middle

theorem perm_addAll_empty (lines : List String) : (empty.addAll lines).lines.Perm lines :=
  (perm_addAll empty lines).trans (.of_eq (List.append_nil lines))

theorem inOrder_addAll {l : SortedLines} (h : InOrder l.lines) (lines : List String) :
    InOrder (l.addAll lines).lines := by
  induction lines generalizing l with
  | nil => exact h
  | cons line lines ih => exact ih (l := l.add line) (inOrder_insertLine h line)

/-- A search for the line ends here: what stands before is less than or equal to it, and what
stands behind is not. -/
structure IsPlace (line : String) (l : List String) (i : Nat) : Prop where
  inside : i ≤ l.length
  before : ∀ a ∈ l.take i, bytes a ≤ bytes line
  behind : ∀ a ∈ l.drop i, ¬ bytes a ≤ bytes line

/-- Lines that are in order have a place for any other one. -/
theorem exists_isPlace (h : InOrder l) (line : String) : ∃ i, IsPlace line l i := by
  induction l with
  | nil => exact ⟨0, Nat.le_refl 0, by simp, by simp⟩
  | cons a l ih =>
    obtain ⟨ha, hl⟩ := List.pairwise_cons.mp h
    by_cases hle : bytes a ≤ bytes line
    · obtain ⟨i, hi, hb, hn⟩ := ih hl
      refine ⟨i + 1, Nat.succ_le_succ hi, ?_, hn⟩
      intro b hmem
      rcases List.mem_cons.mp hmem with rfl | hmem
      · exact hle
      · exact hb b hmem
    · refine ⟨0, Nat.zero_le _, by simp, ?_⟩
      intro b hmem hble
      rcases List.mem_cons.mp hmem with rfl | hmem
      · exact hle hble
      · exact hle (List.le_trans (ha b hmem) hble)

theorem IsPlace.le (h : IsPlace line l i) (h' : IsPlace line l j) : j ≤ i := by
  refine Nat.le_of_not_lt fun hlt => ?_
  have hj := h'.inside
  have hi : i < l.length := by omega
  have htake : l[i] ∈ l.take j := List.mem_take_iff_getElem.mpr ⟨i, by omega, rfl⟩
  have hdrop : l[i] ∈ l.drop i := List.mem_drop_iff_getElem.mpr ⟨0, by omega, by simp⟩
  exact h.behind _ hdrop (h'.before _ htake)

/-- There is only one place, whatever way it is searched for. -/
theorem IsPlace.unique (h : IsPlace line l i) (h' : IsPlace line l j) : i = j :=
  Nat.le_antisymm (h'.le h) (h.le h')

theorem insertLine_eq_insertIdx (h : IsPlace line l i) :
    insertLine line l = l.insertIdx i line := by
  induction l generalizing i with
  | nil =>
    obtain rfl : i = 0 := Nat.le_zero.mp h.inside
    rfl
  | cons a l ih =>
    cases i with
    | zero => exact if_neg (h.behind a List.mem_cons_self)
    | succ i =>
      have hi : IsPlace line l i :=
        ⟨Nat.le_of_succ_le_succ h.inside, fun b hb => h.before b (List.mem_cons_of_mem a hb),
          h.behind⟩
      rw [insertLine, if_pos (h.before a List.mem_cons_self), ih hi]
      rfl

theorem inOrder_ofList (lines : List String) : InOrder (ofList lines).lines := by
  have h : (ofList lines).lines.Pairwise fun a b => decide (bytes a ≤ bytes b) := by
    apply List.pairwise_mergeSort
    · intro a b c hab hbc
      exact decide_eq_true (List.le_trans (of_decide_eq_true hab) (of_decide_eq_true hbc))
    · intro a b
      simpa using List.le_total (bytes a) (bytes b)
  exact h.imp of_decide_eq_true

/-- The ways to build a list, each with the lines that have been put into it. -/
inductive Collects : SortedLines → List String → Prop
  | empty : Collects .empty []
  | ofList (lines : List String) : Collects (ofList lines) lines
  | add {s : SortedLines} {lines : List String} (h : Collects s lines) (line : String) :
    Collects (s.add line) (line :: lines)
  | addAll {s : SortedLines} {lines : List String} (h : Collects s lines) (more : List String) :
    Collects (s.addAll more) (more ++ lines)

namespace Collects

theorem perm (h : Collects s lines) : s.lines.Perm lines := by
  induction h with
  | empty => exact .refl _
  | ofList lines => exact List.mergeSort_perm lines _
  | add h line ih => exact (perm_insertLine line _).trans (ih.cons line)
  | addAll h more ih => exact (perm_addAll _ more).trans (ih.append_left more)

theorem inOrder (h : Collects s lines) : InOrder s.lines := by
  induction h with
  | empty => exact List.Pairwise.nil
  | ofList lines => exact inOrder_ofList lines
  | add h line ih => exact inOrder_insertLine ih line
  | addAll h more ih => exact inOrder_addAll ih more

/-- Only the lines matter, and not when and in which order they came in. -/
theorem eq_of_perm {s' : SortedLines} (h : Collects s lines) (h' : Collects s' all)
    (hp : lines.Perm all) : s = s' :=
  congrArg SortedLines.mk
    (h.inOrder.eq_of_perm h'.inOrder (h.perm.trans (hp.trans h'.perm.symm)))

end Collects

/-- The order in which lines are added to an empty list does not matter. -/
theorem addAll_eq_of_perm (h : l.Perm l') : empty.addAll l = empty.addAll l' :=
  (Collects.empty.addAll l).eq_of_perm (Collects.empty.addAll l') (h.append_right [])

/-- A list into which lines are put in whatever way and order is the one that sorts them all at
once. It holds each line as often as it was put in, and the lines are in the order of their bytes,
also after each one that is added: this one goes to the only place that a search can end at. -/
theorem collected_eq_sorted (h : Collects s lines) (hp : lines.Perm all) :
    s = ofList all ∧ s.lines.Perm all ∧ InOrder s.lines ∧
      (∀ (more : List String) (k : Nat), InOrder (s.addAll (more.take k)).lines) ∧
      ∀ line, (∃! i, IsPlace line s.lines i) ∧
        ∀ i, IsPlace line s.lines i → (s.add line).lines = s.lines.insertIdx i line := by
  refine ⟨h.eq_of_perm (.ofList all) hp, h.perm.trans hp, h.inOrder, ?_, ?_⟩
  · intro more k
    exact (h.addAll (more.take k)).inOrder
  · intro line
    obtain ⟨i, hi⟩ := exists_isPlace h.inOrder line
    exact ⟨⟨i, hi, fun j hj => hj.unique hi⟩, fun j hj => insertLine_eq_insertIdx hj⟩

/-- Lines are added to two that were sorted, and one that is among them is added again. -/
theorem added_again_eq_sorted :
    let s := ((ofList ["z", "B"]).add "é").addAll ["mm", "B", "m"]
    s = ofList ["B", "m", "é", "mm", "z", "B"] ∧ s.lines = ["B", "B", "m", "mm", "z", "é"] := by
  intro s
  have h : Collects s ["mm", "B", "m", "é", "z", "B"] :=
    ((Collects.ofList ["z", "B"]).add "é").addAll ["mm", "B", "m"]
  obtain ⟨hs, hp, ho, -⟩ := collected_eq_sorted h (show _ from (by decide :
    ["mm", "B", "m", "é", "z", "B"].Perm ["B", "m", "é", "mm", "z", "B"]))
  have hlines : InOrder ["B", "B", "m", "mm", "z", "é"] :=
    (by decide : List.Pairwise (fun a b => bytes a ≤ bytes b) ["B", "B", "m", "mm", "z", "é"])
  exact ⟨hs, ho.eq_of_perm hlines (hp.trans (by decide))⟩

end SortedLines

end ShellCore

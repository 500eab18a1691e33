/-! Positions in a text counted in UTF-8 bytes. -/

namespace ShellCore.Text

def byteLength : List Char → Nat
  | [] => 0
  | c :: s => c.utf8Size + byteLength s

/-- The characters that start before byte `n`. -/
def takeBytes : Nat → List Char → List Char
  | _, [] => []
  | 0, _ :: _ => []
  | n + 1, c :: s => c :: takeBytes (n + 1 - c.utf8Size) s

/-- The text from byte `n` on, if a character starts or the text ends there. -/
def dropBytes? : Nat → List Char → Option (List Char)
  | 0, s => some s
  | _ + 1, [] => none
  | n + 1, c :: s => if c.utf8Size ≤ n + 1 then dropBytes? (n + 1 - c.utf8Size) s else none

@[simp] theorem byteLength_nil : byteLength [] = 0 := rfl

@[simp] theorem byteLength_cons (c : Char) (s : List Char) :
    byteLength (c :: s) = c.utf8Size + byteLength s := rfl

@[simp] theorem byteLength_append (s t : List Char) :
    byteLength (s ++ t) = byteLength s + byteLength t := by
  induction s with
  | nil => simp
  | cons c s ih => simp [ih, Nat.add_assoc]

theorem byteLength_eq_zero {s : List Char} : byteLength s = 0 ↔ s = [] := by
  cases s with
  | nil => simp
  | cons c s =>
    have hc := c.utf8Size_pos
    simp only [byteLength_cons, reduceCtorEq, iff_false]
    omega

theorem takeBytes_byteLength_append (s t : List Char) :
    takeBytes (byteLength s) (s ++ t) = s := by
  induction s with
  | nil => cases t <;> rfl
  | cons c s ih =>
    obtain ⟨n, hn⟩ := Nat.exists_eq_add_of_lt c.utf8Size_pos
    have h : byteLength (c :: s) = (n + byteLength s) + 1 := by simp; omega
    have hr : (n + byteLength s) + 1 - c.utf8Size = byteLength s := by omega
    rw [h, List.cons_append, takeBytes, hr, ih]

theorem takeBytes_add_append (n : Nat) (s t : List Char) :
    takeBytes (byteLength s + n) (s ++ t) = s ++ takeBytes n t := by
  induction s with
  | nil => simp
  | cons c s ih =>
    obtain ⟨k, hk⟩ := Nat.exists_eq_add_of_lt c.utf8Size_pos
    have h : byteLength (c :: s) + n = (k + byteLength s + n) + 1 := by simp; omega
    have hr : (k + byteLength s + n) + 1 - c.utf8Size = byteLength s + n := by omega
    rw [h, List.cons_append, takeBytes, hr, ih, List.cons_append]

theorem takeBytes_append_of_le {n : Nat} {s : List Char} (h : n ≤ byteLength s) (t : List Char) :
    takeBytes n (s ++ t) = takeBytes n s := by
  induction s generalizing n with
  | nil =>
    obtain rfl : n = 0 := Nat.le_zero.mp h
    cases t <;> rfl
  | cons c s ih =>
    cases n with
    | zero => rfl
    | succ n =>
      rw [byteLength_cons] at h
      rw [List.cons_append, takeBytes, takeBytes, ih (by omega)]

theorem dropBytes?_byteLength_append (s t : List Char) :
    dropBytes? (byteLength s) (s ++ t) = some t := by
  induction s with
  | nil => simp [dropBytes?]
  | cons c s ih =>
    obtain ⟨n, hn⟩ := Nat.exists_eq_add_of_lt c.utf8Size_pos
    have h : byteLength (c :: s) = (n + byteLength s) + 1 := by simp; omega
    have hr : (n + byteLength s) + 1 - c.utf8Size = byteLength s := by omega
    rw [h, List.cons_append, dropBytes?, hr, ih, if_pos (by omega)]

theorem dropBytes?_behind (s : List Char) (c : Char) (t : List Char) :
    dropBytes? (byteLength s + c.utf8Size) (s ++ c :: t) = some t := by
  have hs : s ++ c :: t = (s ++ [c]) ++ t := by simp
  have hn : byteLength s + c.utf8Size = byteLength (s ++ [c]) := by simp
  rw [hs, hn, dropBytes?_byteLength_append]

/-- What is dropped is what is taken, and it ends at the byte offset. -/
theorem dropBytes?_eq_some {n : Nat} {s t : List Char} (h : dropBytes? n s = some t) :
    s = takeBytes n s ++ t ∧ byteLength (takeBytes n s) = n := by
  fun_induction dropBytes? n s with
  | case1 s =>
    cases h
    cases t <;> simp [takeBytes]
  | case2 => cases h
  | case3 n c s hc ih =>
    obtain ⟨hs, hn⟩ := ih h
    simp only [takeBytes, List.cons_append, byteLength_cons]
    exact ⟨by rw [← hs], by omega⟩
  | case4 => cases h

end ShellCore.Text

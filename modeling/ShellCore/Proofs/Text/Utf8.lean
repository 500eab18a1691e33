import ShellCore.Text.Bytes

/-! The bytes of a text. One that stands for a character of its own is part of no other. -/

namespace ShellCore.Text

variable {c d : Char} {b : UInt8}

/-- Characters of one byte, which is their code. -/
def IsAscii (c : Char) : Prop := c.toNat < 128

instance (c : Char) : Decidable (IsAscii c) := inferInstanceAs (Decidable (_ < _))

def utf8 (s : List Char) : List UInt8 := s.flatMap String.utf8EncodeChar

theorem utf8_cons (c : Char) (s : List Char) : utf8 (c :: s) = String.utf8EncodeChar c ++ utf8 s :=
  List.flatMap_cons

theorem length_utf8 (s : List Char) : (utf8 s).length = byteLength s := by
  induction s with
  | nil => rfl
  | cons c s ih =>
    rw [utf8_cons, List.length_append, String.length_utf8EncodeChar, ih, byteLength_cons]

theorem IsAscii.utf8Size_eq (h : IsAscii c) : c.utf8Size = 1 := by
  rw [Char.utf8Size_eq_one_iff, UInt32.le_iff_toNat_le]
  exact Nat.le_of_lt_succ h

theorem IsAscii.encode_eq (h : IsAscii c) : String.utf8EncodeChar c = [c.toUInt8] :=
  String.utf8EncodeChar_eq_singleton h.utf8Size_eq

theorem IsAscii.utf8_cons (h : IsAscii c) (s : List Char) :
    utf8 (c :: s) = c.toUInt8 :: utf8 s := by
  rw [Text.utf8_cons, h.encode_eq]
  rfl

theorem IsAscii.toNat_toUInt8 (h : IsAscii c) : c.toUInt8.toNat = c.toNat := by
  have hc : c.toNat < 128 := h
  have hmod : c.toUInt8.toNat = c.toNat % 256 := rfl
  omega

/-- A character of more bytes has none below 128. -/
theorem le_of_mem_encode (h : ¬ IsAscii c) (hb : b ∈ String.utf8EncodeChar c) :
    128 ≤ b.toNat := by
  have hc : ¬ c.val.toNat ≤ 127 := fun hle => h (Nat.lt_succ_of_le hle)
  have hmod : ∀ n, 128 ≤ n → n < 256 → 128 ≤ (UInt8.ofNat n).toNat := by
    intro n hn hlt
    rw [UInt8.toNat_ofNat']
    omega
  rw [String.utf8EncodeChar, if_neg hc] at hb
  split at hb
  · simp only [List.mem_cons, List.not_mem_nil, or_false] at hb
    rcases hb with rfl | rfl <;> exact hmod _ (by omega) (by omega)
  · split at hb
    · simp only [List.mem_cons, List.not_mem_nil, or_false] at hb
      rcases hb with rfl | rfl | rfl <;> exact hmod _ (by omega) (by omega)
    · simp only [List.mem_cons, List.not_mem_nil, or_false] at hb
      rcases hb with rfl | rfl | rfl | rfl <;> exact hmod _ (by omega) (by omega)

/-- No other character has the byte of a character of one byte. -/
theorem IsAscii.not_mem_encode (hd : IsAscii d) (hne : c ≠ d) :
    d.toUInt8 ∉ String.utf8EncodeChar c := by
  intro hmem
  have hcode := hd.toNat_toUInt8
  by_cases hc : IsAscii c
  · rw [hc.encode_eq, List.mem_singleton] at hmem
    rw [hmem, hc.toNat_toUInt8] at hcode
    exact hne (Char.toNat_inj.mp hcode)
  · have hle := le_of_mem_encode hc hmem
    have hlt : d.toNat < 128 := hd
    omega

end ShellCore.Text

import Guise.Text.Ascending
import Mathlib.Data.Char

/-!
# The order of texts is that of their bytes

`Text.bytes` writes a text in UTF-8. Characters are compared by their code points, and UTF-8 keeps that
order (`encode_lt`): a longer code begins with a larger byte, and among codes of one length the code
points are compared by their digits in base 64, the highest first. So a list of texts that ascends by code
points ascends by bytes (`lt_iff_bytes_lt`).
-/

namespace Guise.Text

/-- The bytes of a text in UTF-8. -/
def bytes (s : String) : List UInt8 := s.toUTF8.data.toList

theorem bytes_eq (s : String) : bytes s = s.toList.flatMap String.utf8EncodeChar := by
  rw [bytes, String.toUTF8, ← String.ofList_toList (s := s), String.toByteArray_ofList,
    List.utf8Encode, List.toList_data_toByteArray, String.toList_ofList]

/-! ### Lists of bytes -/

section Bytes
variable {a b v w : Nat} {xs ys : List UInt8}

theorem ofNat_cons_lt (ha : a < 256) (hb : b < 256) :
    UInt8.ofNat a :: xs < UInt8.ofNat b :: ys ↔ a < b ∨ a = b ∧ xs < ys := by
  rw [List.cons_lt_cons_iff, UInt8.lt_iff_toNat_lt, ← UInt8.toNat_inj, UInt8.toNat_ofNat',
    UInt8.toNat_ofNat', Nat.mod_eq_of_lt ha, Nat.mod_eq_of_lt hb]

theorem append_lt_append (p : List UInt8) : p ++ xs < p ++ ys ↔ xs < ys := by
  induction p with
  | nil => rfl
  | cons a p ih => simp [ih]

theorem digits_lt (h : v < w) : v / 64 < w / 64 ∨ v / 64 = w / 64 ∧ v % 64 < w % 64 := by omega

end Bytes

theorem codePoint_lt (c : Char) : c.val.toNat < 0x110000 := by
  have h := c.valid
  simp only [UInt32.isValidChar, Nat.isValidChar] at h
  omega

/-- A smaller character has a smaller code, whatever follows the two codes. -/
theorem encode_lt {c d : Char} (h : c < d) (xs ys : List UInt8) :
    String.utf8EncodeChar c ++ xs < String.utf8EncodeChar d ++ ys := by
  have hlt : c.val.toNat < d.val.toNat := h
  have hd := codePoint_lt d
  simp only [String.utf8EncodeChar]
  generalize c.val.toNat = v at *
  generalize d.val.toNat = w at *
  have h₁ := digits_lt hlt
  have h₂ := @digits_lt (v / 64) (w / 64)
  have h₃ := @digits_lt (v / 64 / 64) (w / 64 / 64)
  -- the codes are written with single quotients, the digits with repeated ones
  have hsq (n : Nat) : n / 4096 = n / 64 / 64 := by omega
  have hcube (n : Nat) : n / 262144 = n / 64 / 64 / 64 := by omega
  simp only [hsq, hcube]
  -- one goal for each pair of lengths
  repeat' split
  all_goals
    simp (disch := omega) only [List.cons_append, List.nil_append, ofNat_cons_lt]
    omega

theorem nil_lt_encode (d : Char) (ys : List UInt8) : [] < String.utf8EncodeChar d ++ ys := by
  obtain ⟨b, bs, hb⟩ := List.exists_cons_of_ne_nil (String.utf8EncodeChar_ne_nil (c := d))
  rw [hb]
  exact List.nil_lt_cons _ _

theorem flatMap_encode_lt_iff (l r : List Char) :
    l.flatMap String.utf8EncodeChar < r.flatMap String.utf8EncodeChar ↔ l < r := by
  induction l generalizing r with
  | nil =>
    cases r with
    | nil => simp
    | cons d r => exact iff_of_true (nil_lt_encode d _) (List.nil_lt_cons _ _)
  | cons c l ih =>
    cases r with
    | nil => simp
    | cons d r =>
      rw [List.cons_lt_cons_iff, List.flatMap_cons, List.flatMap_cons]
      rcases lt_trichotomy c d with hcd | rfl | hdc
      · exact iff_of_true (encode_lt hcd _ _) (.inl hcd)
      · rw [append_lt_append, ih]
        simp
      · refine iff_of_false (List.lt_asymm (encode_lt hdc _ _)) ?_
        rintro (hcd | ⟨rfl, -⟩)
        · exact lt_asymm hdc hcd
        · exact lt_irrefl _ hdc

/-- Texts stand in the order of their code points exactly when their bytes do. -/
theorem lt_iff_bytes_lt {s t : String} : s < t ↔ bytes s < bytes t := by
  rw [bytes_eq, bytes_eq, flatMap_encode_lt_iff]
  exact String.lt_iff

end Guise.Text

/-! # Blank texts

A text is blank when nothing is left of it once the white space at both ends is taken off.  White
space is the Unicode property `White_Space`; the zero-width characters and the information
separators are not in it.  `isBlank_iff` says the same character by character. -/

namespace Guise.Text

/-- The code points with the Unicode property `White_Space`, as closed ranges. -/
def whiteRanges : List (Nat × Nat) :=
  [(0x9, 0xD), (0x20, 0x20), (0x85, 0x85), (0xA0, 0xA0), (0x1680, 0x1680), (0x2000, 0x200A),
   (0x2028, 0x2029), (0x202F, 0x202F), (0x205F, 0x205F), (0x3000, 0x3000)]

/-- Whether a character is white space. -/
def isWhite (c : Char) : Bool :=
  whiteRanges.any fun r => r.1 ≤ c.toNat && c.toNat ≤ r.2

/-- The text without the white space at its two ends. -/
def trim (s : List Char) : List Char :=
  ((s.dropWhile isWhite).reverse.dropWhile isWhite).reverse

/-- Whether nothing is left after trimming. -/
def isBlank (s : String) : Bool :=
  (trim s.toList).isEmpty

theorem dropWhile_eq_nil_iff (p : Char → Bool) (s : List Char) :
    s.dropWhile p = [] ↔ ∀ c ∈ s, p c = true := by
  induction s with
  | nil => simp
  | cons c s ih => by_cases h : p c <;> simp [h, ih]

/-- Trimming leaves nothing exactly when every character is white space. -/
theorem trim_eq_nil_iff (s : List Char) : trim s = [] ↔ ∀ c ∈ s, isWhite c = true := by
  rw [trim, List.reverse_eq_nil_iff, dropWhile_eq_nil_iff]
  refine ⟨fun h => ?_, fun h => ?_⟩
  · rw [← dropWhile_eq_nil_iff]
    cases hd : s.dropWhile isWhite with
    | nil => rfl
    | cons c r =>
      have hc : isWhite c = true := h c (by simp [hd])
      have := List.head?_dropWhile_not isWhite s
      simp [hd, hc] at this
  · rw [(dropWhile_eq_nil_iff isWhite s).2 h]
    simp

/-- A text is blank exactly when every character is white space. -/
theorem isBlank_iff (s : String) : isBlank s = true ↔ ∀ c ∈ s.toList, isWhite c = true := by
  rw [isBlank, List.isEmpty_iff, trim_eq_nil_iff]

end Guise.Text

/-! # Ascending lists of texts

Texts are ordered by their code points.  A strictly ascending list holds each of its texts once, and
`place` puts a text at its place in one. -/

namespace Guise.Text

/-- Whether each text comes strictly before those after it. -/
abbrev Ascending (l : List String) : Prop := l.Pairwise (· < ·)

/-- Inserts a text into an ascending list at its place; a text that is there stays once. -/
def place (s : String) : List String → List String
  | [] => [s]
  | t :: r => if s < t then s :: t :: r else if t < s then t :: place s r else t :: r

/-- Placing a text adds that text and no other. -/
theorem mem_place {s x : String} {l : List String} : x ∈ place s l ↔ x = s ∨ x ∈ l := by
  induction l with
  | nil => simp [place]
  | cons t r ih =>
    simp only [place]
    split
    · simp
    · split
      · simp [ih, or_left_comm]
      · next h₁ h₂ =>
        have : s = t := String.le_antisymm (String.not_lt.1 h₂) (String.not_lt.1 h₁)
        simp [this]

/-- Placing a text keeps a list ascending. -/
theorem Ascending.place {s : String} {l : List String} (h : Ascending l) :
    Ascending (place s l) := by
  induction l with
  | nil => simp [Text.place]
  | cons t r ih =>
    obtain ⟨ht, hr⟩ := List.pairwise_cons.1 h
    simp only [Text.place]
    split
    · next hs =>
      refine List.pairwise_cons.2 ⟨fun x hx => ?_, h⟩
      rcases List.mem_cons.1 hx with rfl | hx
      · exact hs
      · exact String.lt_trans hs (ht x hx)
    · split
      · next hs =>
        refine List.pairwise_cons.2 ⟨fun x hx => ?_, ih hr⟩
        rcases mem_place.1 hx with rfl | hx
        · exact hs
        · exact ht x hx
      · exact h

end Guise.Text

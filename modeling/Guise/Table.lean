/-! # Tables

A table is a list of keys with values in which each key stands at most once: `put` and `erase` first
take the key away.  Looking a key up after one of them is described by two equations. -/

namespace Guise

/-- Keys with their values. -/
abbrev Table (κ α : Type) := List (κ × α)

namespace Table

variable {κ α : Type} [DecidableEq κ]

/-- The value of a key. -/
def find? (t : Table κ α) (k : κ) : Option α :=
  match t with
  | [] => none
  | (j, a) :: r => if j = k then some a else find? r k

/-- The table without a key. -/
def erase (t : Table κ α) (k : κ) : Table κ α := t.filter fun e => e.1 ≠ k

/-- The table with a value for a key, in place of any other. -/
def put (t : Table κ α) (k : κ) (a : α) : Table κ α := (k, a) :: t.erase k

@[simp] theorem find?_nil (k : κ) : find? ([] : Table κ α) k = none := rfl

/-- Taking a key away changes what is found under that key only. -/
theorem find?_erase (t : Table κ α) (k j : κ) :
    (t.erase k).find? j = if k = j then none else t.find? j := by
  induction t with
  | nil => simp [erase]
  | cons e r ih =>
    by_cases he : e.1 = k
    · have : erase (e :: r) k = Table.erase r k := by simp [erase, he]
      rw [this, ih]
      by_cases hj : k = j
      · simp [hj]
      · simp [find?, he, hj]
    · have : erase (e :: r) k = e :: Table.erase r k := by simp [erase, he]
      rw [this]
      simp only [find?, ih]
      by_cases hj : k = j
      · subst hj; simp [he]
      · simp [hj]

/-- Giving a key a value changes what is found under that key only. -/
theorem find?_put (t : Table κ α) (k j : κ) (a : α) :
    (t.put k a).find? j = if k = j then some a else t.find? j := by
  by_cases h : k = j
  · simp [put, find?, h]
  · simp [put, find?, find?_erase, h]

end Table
end Guise

import Mathlib.Data.List.Induction

/-!
# Changes of single keys

A change of a store concerns one key, and leaves a value there or nothing. `Keyed.last` reads off a history
what the last change of a key left, with no store in between, and changes of other keys have no part in it
(`Keyed.last_eq_some_iff`, `Keyed.last_filter`). A store in which every change acts under its key alone
has, after a history from empty, what the last changes left (`Keyed.view_after`).
-/

namespace Guise.Keyed
variable {ε κ α σ : Type} [DecidableEq κ] {key : ε → κ} {left : ε → Option α} {history : List ε} {k : κ}

/-- What the last change of a key left there. -/
def last (key : ε → κ) (left : ε → Option α) (history : List ε) (k : κ) : Option α :=
  (history.reverse.find? fun e => key e = k).bind left

theorem last_append (key : ε → κ) (left : ε → Option α) (history : List ε) (e : ε) (k : κ) :
    last key left (history ++ [e]) k = if key e = k then left e else last key left history k := by
  by_cases h : key e = k <;> simp [last, h]

/-- What stands under a key was put there by a change, and no later change concerns the key. -/
theorem last_eq_some_iff (put : κ → α → ε) (hput : ∀ e a, left e = some a ↔ e = put (key e) a)
    (hkey : ∀ k a, key (put k a) = k) {a : α} : last key left history k = some a ↔
      ∃ before after, history = before ++ put k a :: after ∧ ∀ e ∈ after, key e ≠ k := by
  constructor
  · intro h
    -- read backwards, `e` is the first change of the key
    obtain ⟨e, he, hleft⟩ := Option.bind_eq_some_iff.1 h
    obtain ⟨hk, after, before, hrev, hnot⟩ := List.find?_eq_some_iff_append.1 he
    obtain rfl : key e = k := by simpa using hk
    refine ⟨before.reverse, after.reverse, ?_, fun e' he' => ?_⟩
    · rw [← (hput e a).1 hleft]
      simpa using congrArg List.reverse hrev
    · simpa using hnot e' (List.mem_reverse.1 he')
  · rintro ⟨before, after, rfl, hnot⟩
    have hnone : after.reverse.find? (fun e => decide (key e = k)) = none := by
      simpa using hnot
    have hleft : left (put k a) = some a := (hput _ a).2 (by rw [hkey])
    simp [last, List.find?_append, hnone, hkey, hleft]

/-- Changes of other keys might as well not have been made. -/
theorem last_filter (keep : ε → Bool) (h : ∀ e, key e = k → keep e = true) (history : List ε) :
    last key left (history.filter keep) k = last key left history k := by
  unfold last
  rw [← List.filter_reverse, List.find?_filter]
  congr 2
  funext e
  by_cases he : key e = k <;> simp [he, h]

/-- If each change acts under its key alone, a store that was empty has what the last changes left. -/
theorem view_after (apply : σ → ε → σ) (view : σ → κ → Option α) (s : σ)
    (happly : ∀ s e k, view (apply s e) k = if key e = k then left e else view s k)
    (hempty : ∀ k, view s k = none) (history : List ε) (k : κ) :
    view (history.foldl apply s) k = last key left history k := by
  induction history using List.reverseRecOn with
  | nil => exact hempty k
  | append_singleton history e ih =>
    rw [List.foldl_append, last_append, ← ih]
    exact happly _ e k

end Guise.Keyed

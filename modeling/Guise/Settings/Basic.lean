import Guise.Json.Basic

/-! # Settings

A setting is a text at a path such as `security/default-tenant`.  A source of settings is a partial
function from paths to texts, or a stack of sources of which the first that defines a path answers.
Every kind of source (a table, an environment, a document) is a partial function in the end. -/

namespace Guise

/-- A source of settings. -/
inductive Settings where
  /-- A source known by its answers. -/
  | source (find : String → Option String)
  /-- Sources in order of precedence. -/
  | layers (sources : List Settings)

namespace Settings

mutual

/-- The text that a source gives a path, if it defines it. -/
def get? : Settings → String → Option String
  | source find, path => find path
  | layers sources, path => firstOf sources path

/-- The answer of the first source in the list that has one. -/
def firstOf : List Settings → String → Option String
  | [], _ => none
  | s :: r, path => (get? s path).or (firstOf r path)

end

/-- The text at a path, or a default when the path is not defined. -/
def getD (s : Settings) (path default : String) : String := (s.get? path).getD default

/-- The value of a key in a list of pairs, of which the last with the key counts. -/
def lookupLast (key : String) : List (String × String) → Option String
  | [] => none
  | (k, v) :: r => (lookupLast key r).or (if k = key then some v else none)

theorem firstOf_eq_findSome? (sources : List Settings) (path : String) :
    firstOf sources path = sources.findSome? (get? · path) := by
  induction sources with
  | nil => rfl
  | cons s r ih =>
    rw [firstOf, ih, List.findSome?_cons]
    cases s.get? path <;> rfl

theorem lookupLast_append (key : String) (l r : List (String × String)) :
    lookupLast key (l ++ r) = (lookupLast key r).or (lookupLast key l) := by
  induction l with
  | nil => exact (Option.or_none ..).symm
  | cons e l ih => rw [List.cons_append, lookupLast, lookupLast, ih, Option.or_assoc]

theorem lookupLast_eq_none {key : String} {l : List (String × String)} (h : ∀ e ∈ l, e.1 ≠ key) :
    lookupLast key l = none := by
  induction l with
  | nil => rfl
  | cons e l ih =>
    rw [lookupLast, ih fun e he => h e (List.mem_cons_of_mem _ he), if_neg (h e (List.mem_cons_self ..))]
    rfl

theorem lookupLast_filter {key : String} {keep : String × String → Bool}
    (h : ∀ e, e.1 = key → keep e = true) (l : List (String × String)) :
    lookupLast key (l.filter keep) = lookupLast key l := by
  induction l with
  | nil => rfl
  | cons e l ih =>
    cases hk : keep e with
    | true => rw [List.filter_cons_of_pos hk, lookupLast, lookupLast, ih]
    | false =>
      have hne : e.1 ≠ key := fun he => Bool.false_ne_true (hk ▸ h e he)
      rw [List.filter_cons_of_neg (by simp [hk]), ih, lookupLast, if_neg hne, Option.or_none]

/-- Settings written one after another; the last for a path counts. -/
def table (entries : List (String × String)) : Settings :=
  source fun path => lookupLast path entries

/-- No setting at all. -/
def empty : Settings := table []

end Settings
end Guise

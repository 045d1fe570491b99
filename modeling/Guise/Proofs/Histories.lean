import Guise.Executor
import Guise.Proofs.Keyed

/-!
# Histories of a directory

What a history of changes leaves in an entry is told by the last change of that entry, and by no other
(`Directory.entry?_after`, `lastSet_eq_some_iff`, `lastSet_filter`). A question about a user under a
tenant goes to two entries, the tenant's and the one without tenant, so `Directory.held` answers it from
the history, without a directory in between, and directories that agree on the two entries answer it alike
(`Agrees.roles`).
-/

namespace Guise.Directory
variable {d d' : Directory} {t : Option Tenant} {u : String}

def Edit.key : Edit → Option Tenant × String
  | set tenant user _ | remove tenant user => (tenant, user)

/-- The roles that a change leaves in its entry; after a removal there is no entry. -/
def Edit.left : Edit → Option (List String)
  | set _ _ roles => some roles
  | remove _ _ => none

theorem entry?_apply (d : Directory) (e : Edit) (t : Option Tenant) (u : String) :
    entry? (e.apply d) t u = if e.key = (t, u) then e.left else d.entry? t u := by
  cases e with
  | set tenant user roles => exact Table.find?_put ..
  | remove tenant user => exact Table.find?_erase ..

/-! ### The last change of an entry -/

/-- The roles last set in an entry and not removed since. -/
def lastSet (history : List Edit) (t : Option Tenant) (u : String) : Option (List String) :=
  (history.reverse.find? fun e => e.key = (t, u)).bind Edit.left

/-- These roles were set in an entry, and nobody has set or removed the entry since. -/
def Stands (history : List Edit) (t : Option Tenant) (u : String) (roles : List String) : Prop :=
  ∃ before after, history = before ++ .set t u roles :: after ∧ ∀ e ∈ after, e.key ≠ (t, u)

theorem lastSet_eq_some_iff {history : List Edit} {roles : List String} :
    lastSet history t u = some roles ↔ Stands history t u roles := by
  refine Keyed.last_eq_some_iff (fun (k : Option Tenant × String) => Edit.set k.1 k.2) (fun e roles => ?_)
    fun _ _ => rfl
  cases e <;> simp [Edit.left, Edit.key]

/-- Changes of other entries might as well not have been made. -/
theorem lastSet_filter (keep : Edit → Bool) (h : ∀ e, e.key = (t, u) → keep e = true)
    (history : List Edit) : lastSet (history.filter keep) t u = lastSet history t u :=
  Keyed.last_filter keep h history

theorem entry?_after (history : List Edit) (t : Option Tenant) (u : String) :
    entry? (empty.after history) t u = lastSet history t u :=
  Keyed.view_after Edit.apply (fun d (k : Option Tenant × String) => entry? d k.1 k.2) empty
    (fun d e k => entry?_apply d e k.1 k.2) (fun _ => rfl) history (t, u)

/-! ### The two entries behind a question -/

/-- The roles that a history leaves for a user: those of the tenant, if it has an entry for the user,
else those without tenant, else none. -/
def held (history : List Edit) (t : Option Tenant) (u : String) : List String :=
  ((t.bind fun tenant => lastSet history (some tenant) u).or (lastSet history none u)).getD []

theorem roles_after (history : List Edit) (t : Option Tenant) (u : String) :
    (empty.after history).roles t u = .ok (held history t u) ∨
      (empty.after history).roles t u = .error (.unknownUser u) ∧ held history t u = [] := by
  unfold roles held
  simp only [entry?_after]
  cases (t.bind fun tenant => lastSet history (some tenant) u).or (lastSet history none u) with
  | none => exact .inr ⟨rfl, rfl⟩
  | some roles => exact .inl rfl

/-- Two directories have the same entry, or both have none, for a user under a tenant and without. -/
structure Agrees (d d' : Directory) (t : Option Tenant) (u : String) : Prop where
  qualified : d'.entry? t u = d.entry? t u
  plain : d'.entry? none u = d.entry? none u

namespace Agrees

theorem roles (h : Agrees d d' t u) : d'.roles t u = d.roles t u := by
  unfold Directory.roles
  rw [h.plain]
  cases t with
  | none => rfl
  | some tenant => simp only [Option.bind_some, h.qualified]

theorem apply (h : Agrees d d' t u) (e : Edit) : Agrees (e.apply d) (e.apply d') t u :=
  ⟨by rw [entry?_apply, entry?_apply, h.qualified], by rw [entry?_apply, entry?_apply, h.plain]⟩

/-- Without the changes of other entries a history leaves the same for a user. -/
theorem filter {keep : Edit → Bool} (h : ∀ e, e.key = (t, u) ∨ e.key = (none, u) → keep e = true)
    (history : List Edit) : Agrees (empty.after history) (empty.after (history.filter keep)) t u := by
  constructor
  · rw [entry?_after, entry?_after, lastSet_filter keep fun e he => h e (.inl he)]
  · rw [entry?_after, entry?_after, lastSet_filter keep fun e he => h e (.inr he)]

theorem after (h : Agrees d d' t u) (history : List Edit) :
    Agrees (d.after history) (d'.after history) t u := by
  induction history generalizing d d' with
  | nil => exact h
  | cons e history ih => exact ih (h.apply e)

end Agrees

end Guise.Directory

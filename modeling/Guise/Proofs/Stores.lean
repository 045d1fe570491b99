import Guise.Proofs.Histories

/-!
# What the stores answer

Directory and registry are maps that a history of changes builds up: what stands under a key was put there,
and no later change concerns the key (`Directory.Stands`, `Registry.Stands`). A question to the directory
goes to the tenant's entry first, so what stands there hides the entry without tenant, even when it is no
role at all, and changes of any third key have no part in the answer. Questions change nothing: in a run
of changes and questions each is answered from the changes before it (`Directory.getElem?_answers`,
`Registry.getElem?_answers`).
-/

namespace Guise

namespace Directory
variable {history : List Edit} {t : Option Tenant} {u : String}

theorem roles_eq_ok_iff {roles : List String} : (empty.after history).roles t u = .ok roles ↔
    (∃ tenant, t = some tenant ∧ Stands history t u roles) ∨
      Stands history none u roles ∧ ∀ tenant hidden, t = some tenant → ¬ Stands history t u hidden := by
  unfold Directory.roles
  simp only [entry?_after, ← lastSet_eq_some_iff]
  cases t with
  | none => cases lastSet history none u <;> simp
  | some tenant =>
    cases ht : lastSet history (some tenant) u with
    | none => cases lastSet history none u <;> simp [ht]
    | some roles' => simp [ht]

theorem roles_eq_error_iff {e : LookupError} : (empty.after history).roles t u = .error e ↔
    e = .unknownUser u ∧ ∀ roles, ¬ Stands history t u roles ∧ ¬ Stands history none u roles := by
  unfold Directory.roles
  simp only [entry?_after, ← lastSet_eq_some_iff]
  cases t with
  | none => cases lastSet history none u <;> simp [eq_comm]
  | some tenant =>
    cases ht : lastSet history (some tenant) u with
    | none => cases lastSet history none u <;> simp [ht, eq_comm]
    | some roles' =>
      constructor
      · intro h
        simp [ht] at h
      · rintro ⟨-, hnot⟩
        exact absurd rfl (hnot roles').1

/-- A change of an entry that a question does not go to might as well not have been made. -/
theorem roles_without (before : List Edit) {e : Edit} (after : List Edit) (ht : e.key ≠ (t, u))
    (hnone : e.key ≠ (none, u)) : (empty.after (before ++ e :: after)).roles t u =
      (empty.after (before ++ after)).roles t u := by
  let keep : Edit → Bool := fun e => e.key = (t, u) ∨ e.key = (none, u)
  have hkeep : ∀ e, e.key = (t, u) ∨ e.key = (none, u) → keep e = true := fun _ h => decide_eq_true h
  have hsame : (before ++ e :: after).filter keep = (before ++ after).filter keep := by
    simp [keep, ht, hnone]
  rw [← (Agrees.filter hkeep (before ++ e :: after)).roles, hsame, (Agrees.filter hkeep _).roles]

theorem roles_remove (history : List Edit) (tenant : Tenant) (u : String) :
    (empty.after (history ++ [.remove (some tenant) u])).roles (some tenant) u =
      (empty.after history).roles none u := by
  rw [after, List.foldl_append]
  show (Edit.apply (empty.after history) (.remove (some tenant) u)).roles (some tenant) u = _
  unfold Directory.roles
  simp [entry?_apply, Edit.key, Edit.left]

def Step.edit? : Step → Option Edit
  | edit e => some e
  | ask .. => none

/-- The changes among steps. -/
def edits (steps : List Step) : List Edit := steps.filterMap Step.edit?

theorem getElem?_answers (d : Directory) (before : List Step) (t : Option Tenant) (u : String)
    (after : List Step) : (d.answers (before ++ .ask t u :: after))[before.length]? =
      some (some ((d.after (edits before)).roles t u)) := by
  induction before generalizing d with
  | nil => rfl
  | cons s before ih =>
    cases s with
    | edit e => exact ih (e.apply d)
    | ask => exact ih d

end Directory

namespace Registry

def Edit.key : Edit → String
  | register key _ | unregister key => key

/-- The name that a change leaves under its key; after an unregistration there is none. -/
def Edit.left : Edit → Option String
  | register _ name => some name
  | unregister _ => none

theorem name?_apply (r : Registry) (e : Edit) (key : String) :
    name? (e.apply r) key = if e.key = key then e.left else r.name? key := by
  cases e with
  | register k name => exact Table.find?_put ..
  | unregister k => exact Table.find?_erase ..

/-- This name was registered under a key, and nobody has registered or unregistered the key since. -/
def Stands (history : List Edit) (key name : String) : Prop :=
  ∃ before after, history = before ++ .register key name :: after ∧ ∀ e ∈ after, e.key ≠ key

theorem name?_eq_some_iff {history : List Edit} {key name : String} :
    (empty.after history).name? key = some name ↔ Stands history key name := by
  have hlast : (empty.after history).name? key = Keyed.last Edit.key Edit.left history key :=
    Keyed.view_after Edit.apply name? empty name?_apply (fun _ => rfl) history key
  rw [hlast]
  refine Keyed.last_eq_some_iff Edit.register (fun e name => ?_) fun _ _ => rfl
  cases e <;> simp [Edit.left, Edit.key]

theorem name?_eq_none_iff {history : List Edit} {key : String} :
    (empty.after history).name? key = none ↔ ∀ name, ¬ Stands history key name := by
  rw [Option.eq_none_iff_forall_ne_some]
  simp only [ne_eq, name?_eq_some_iff]

def Step.edit? : Step → Option Edit
  | edit e => some e
  | ask _ => none

def edits (steps : List Step) : List Edit := steps.filterMap Step.edit?

theorem getElem?_answers (r : Registry) (before : List Step) (s : Step) (after : List Step) :
    (r.answers (before ++ s :: after))[before.length]? = some ((r.after (edits before)).answer s) := by
  induction before generalizing r with
  | nil => cases s <;> rfl
  | cons s' before ih =>
    cases s' with
    | edit e => exact ih (e.apply r)
    | ask => exact ih r

end Registry

theorem Executor.systemPrincipal_ofStores (x : Executor) (d : Directory) (r : Registry) :
    (x.systemPrincipal (.ofStores d r)).value =
      match r.name? x.config.systemKey with
      | some name => .ok name
      | none => .error (.noSystemPrincipal x.config.systemKey) := by
  unfold systemPrincipal Lookups.name Lookups.ofStores
  dsimp only
  cases r.name? x.config.systemKey <;> rfl

/-- The stores are maps built up by histories of changes. A directory answers with the roles that stand
under the tenant of the question, just as they were set, be it none at all; if nothing stands there, with
those that stand under no tenant; and else that the user is unknown. A change under any other key makes no
difference, and once a tenant's entry is removed the entry without tenant answers. A registry has under a
key the name that stands there, asked for or given back when the key is unregistered; and there is no
system principal exactly while no name stands under the configured key. In a run of changes and questions
each question is answered from the changes before it. -/
theorem stores_answer_last :
    (∀ history t u,
      (∀ roles, (Directory.empty.after history).roles t u = .ok roles ↔
        (∃ tenant, t = some tenant ∧ Directory.Stands history t u roles) ∨
          Directory.Stands history none u roles ∧
            ∀ tenant hidden, t = some tenant → ¬ Directory.Stands history t u hidden) ∧
      (∀ e, (Directory.empty.after history).roles t u = .error e ↔ e = .unknownUser u ∧
        ∀ roles, ¬ Directory.Stands history t u roles ∧ ¬ Directory.Stands history none u roles)) ∧
    (∀ before e after t u, Directory.Edit.key e ≠ (t, u) → e.key ≠ (none, u) →
      (Directory.empty.after (before ++ e :: after)).roles t u =
        (Directory.empty.after (before ++ after)).roles t u) ∧
    (∀ history tenant u,
      (Directory.empty.after (history ++ [.remove (some tenant) u])).roles (some tenant) u =
        (Directory.empty.after history).roles none u) ∧
    (∀ before t u after, (Directory.empty.answers (before ++ .ask t u :: after))[before.length]? =
      some (some ((Directory.empty.after (Directory.edits before)).roles t u))) ∧
    (∀ history key,
      (∀ name, (Registry.empty.after history).name? key = some name ↔
        Registry.Stands history key name) ∧
      ((Registry.empty.after history).name? key = none ↔ ∀ name, ¬ Registry.Stands history key name)) ∧
    (∀ before key after, ∀ s ∈ [.ask key, .edit (.unregister key)],
      (Registry.empty.answers (before ++ s :: after))[before.length]? =
        some ((Registry.empty.after (Registry.edits before)).name? key)) ∧
    ∀ (x : Executor) d history,
      let result := (x.systemPrincipal (.ofStores d (Registry.empty.after history))).value
      (∀ name, result = .ok name ↔ Registry.Stands history x.config.systemKey name) ∧
      (∀ e, result = .error e ↔ e = .noSystemPrincipal x.config.systemKey ∧
        ∀ name, ¬ Registry.Stands history x.config.systemKey name) ∧
      ∀ text, result ≠ .panic text := by
  refine ⟨fun history t u => ⟨fun roles => Directory.roles_eq_ok_iff, fun e => Directory.roles_eq_error_iff⟩,
    fun before e after t u ht hnone => Directory.roles_without before after ht hnone,
    Directory.roles_remove, Directory.getElem?_answers Directory.empty,
    fun history key => ⟨fun name => Registry.name?_eq_some_iff, Registry.name?_eq_none_iff⟩,
    fun before key after s hs => ?_, fun x d history => ?_⟩
  · rw [Registry.getElem?_answers]
    rcases List.mem_cons.1 hs with rfl | hs
    · rfl
    · obtain rfl := List.mem_singleton.1 hs
      rfl
  · simp only [Executor.systemPrincipal_ofStores, ← Registry.name?_eq_some_iff]
    cases hname : (Registry.empty.after history).name? x.config.systemKey with
    | some name => simp
    | none => simp [eq_comm]

/-- Under a tenant a user holds no role at all, and without tenant one twice; the system principal is
registered twice and then no more. -/
theorem stores_answer_last_shadowed :
    let acme : Tenant := ⟨"acme", by decide⟩
    let plain : Directory.Edit := .set none "ann" ["Reader", "Reader"]
    let shadow : Directory.Edit := .set (some acme) "ann" []
    let key := Config.default.systemKey
    let names : List Registry.Edit := [.register key "root", .register key "admin", .unregister key]
    (Directory.empty.after ([plain] ++ .set (some acme) "bob" ["Boss"] :: [shadow])).roles (some acme) "ann" =
        .ok [] ∧
      (Directory.empty.after ([plain, shadow] ++ [.remove (some acme) "ann"])).roles (some acme) "ann" =
        .ok ["Reader", "Reader"] ∧
      (Registry.empty.answers ([.edit (.register key "root"), .edit (.register key "admin")] ++
        .edit (.unregister key) :: [.ask key]))[2]? = some (some "admin") ∧
      ((Executor.ofConfig .default).systemPrincipal (.ofStores .empty (Registry.empty.after names))).value =
        .error (.noSystemPrincipal key) := by
  intro acme plain shadow key names
  obtain ⟨hroles, hother, hremove, -, hname, hanswers, hsystem⟩ := stores_answer_last
  refine ⟨?_, ?_, ?_, ?_⟩
  · rw [hother [plain] _ [shadow] (some acme) "ann" (by decide) (by decide)]
    exact ((hroles _ (some acme) "ann").1 []).2 (.inl ⟨acme, rfl, [plain], [], rfl, by decide⟩)
  · rw [hremove]
    exact ((hroles _ none "ann").1 _).2 (.inr ⟨⟨[], [shadow], rfl, by decide⟩, nofun⟩)
  · refine (hanswers _ key [.ask key] (.edit (.unregister key)) (by simp)).trans (congrArg some ?_)
    exact ((hname _ key).1 "admin").2 ⟨[.register key "root"], [], rfl, by decide⟩
  · refine ((hsystem _ .empty names).2.1 _).2 ⟨rfl, (hname names key).2.1 (by decide)⟩

end Guise

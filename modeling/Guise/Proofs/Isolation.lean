import Guise.Proofs.Granting

/-!
# Isolation of tenants and users

The directory is read in one place only, the answer to a question about roles, so a step under another
directory (`Machine.under`) is the same step as long as the two have the same entries behind what it
asks (`Machine.step_under`). Both directories are changed alike, so the agreement lasts, and a run that
never asks about anything else is the same run (`Machine.run_under`).
-/

namespace Guise

/-! ### Questions -/

/-- The same entries stand behind each of these questions. -/
def Directory.AgreesOn (d d' : Directory) (qs : List Question) : Prop :=
  ∀ t u, .roles t u ∈ qs → d.Agrees d' t u

theorem Directory.Agrees.on {d d' : Directory} {t : Option Tenant} {p : String} {qs : List Question}
    (h : d.Agrees d' t p) (hq : ∀ t' u, .roles t' u ∈ qs → t' = t ∧ u = p) : d.AgreesOn d' qs := by
  intro t' u hmem
  obtain ⟨rfl, rfl⟩ := hq t' u hmem
  exact h

namespace Lookups
variable {l : Lookups} {d : Directory}

/-- The collaborators with another directory. -/
def under (l : Lookups) (d : Directory) : Lookups := { l with directory := d }

theorem roles_under {t : Option Tenant} {u : String} (h : l.directory.Agrees d t u) :
    (l.under d).roles t u = l.roles t u := by
  unfold roles under
  dsimp only
  rw [h.roles]

theorem apply_under (e : Edit) (l : Lookups) (d : Directory) :
    e.apply (l.under d) = (e.apply l).under (d.after e.directory?.toList) := by
  cases e <;> rfl

theorem directory_apply (e : Edit) (l : Lookups) :
    (e.apply l).directory = l.directory.after e.directory?.toList := by
  cases e <;> rfl

end Lookups

namespace Executor
variable {x : Executor} {l : Lookups} {d : Directory} {tenant : Option Tenant} {p : String}

theorem asksAbout_only {t : Option Tenant} {u : String} (h : .roles t u ∈ x.asksAbout tenant p) :
    t = tenant.or x.defaultTenant ∧ u = p := by
  unfold asksAbout at h
  split at h
  · cases h
  · cases List.mem_singleton.1 h
    exact ⟨rfl, rfl⟩

theorem asksSystem_only {t : Option Tenant} {u : String} (hname : l.name x.config.systemKey = .ok (some p))
    (h : .roles t u ∈ x.asksSystem l) : t = x.defaultTenant ∧ u = p := by
  unfold asksSystem at h
  rw [hname] at h
  rcases List.mem_cons.1 h with h | h
  · cases h
  · cases List.mem_singleton.1 h
    exact ⟨rfl, rfl⟩

/-- All that is asked on behalf of a user, or of the system under their name, is about that user. -/
theorem asksFor_only {a : Assumed} {t : Option Tenant} {u : String}
    (ha : a = .user p ∨ a = .system ∧ l.name x.config.systemKey = .ok (some p))
    (h : .roles t u ∈ x.asksFor l a) : t = x.defaultTenant ∧ u = p := by
  rcases ha with rfl | ⟨rfl, hname⟩
  · exact asksAbout_only h
  · exact asksSystem_only hname h

theorem resolve_under (h : l.directory.Agrees d (tenant.or x.defaultTenant) p) :
    x.resolve (l.under d) tenant p = x.resolve l tenant p := by
  unfold resolve
  dsimp only
  rw [Lookups.roles_under h]

theorem identify_under (h : l.directory.AgreesOn d (x.asksAbout tenant p)) :
    x.identify (l.under d) tenant p = x.identify l tenant p := by
  unfold identify
  split
  · rfl
  · rename_i hp
    rw [resolve_under (h _ _ _)]
    unfold asksAbout
    rw [if_neg hp]
    exact List.mem_singleton_self _

theorem system_under (h : l.directory.AgreesOn d (x.asksSystem l)) :
    x.system (l.under d) = x.system l := by
  unfold asksSystem at h
  have hname : (l.under d).name x.config.systemKey = l.name x.config.systemKey := rfl
  unfold system systemPrincipal
  dsimp only
  rw [hname]
  rcases hn : l.name x.config.systemKey with (_ | q) | ⟨⟨⟩⟩ | text
  · rfl
  · rw [hn] at h
    dsimp only
    rw [resolve_under (h _ _ _)]
    exact List.mem_cons_of_mem _ (List.mem_singleton_self _)
  · rfl

end Executor

theorem Query.answer_under {x : Executor} {l : Lookups} {d : Directory} {q : Query}
    (h : l.directory.AgreesOn d (q.asks x l)) : q.answer x (l.under d) = q.answer x l := by
  cases q with
  | identity tenant p => exact Executor.identify_under h
  | authorities tenant p => exact Executor.resolve_under (h _ _ (List.mem_singleton_self _))
  | systemPrincipal => rfl
  | systemIdentity => exact Executor.system_under h

/-! ### Worlds -/

namespace World
variable {x : Executor} {d : Directory}

/-- The world with another directory. -/
def under (w : World) (d : Directory) : World := { w with lookups := w.lookups.under d }

theorem resolveCall_under {w : World} {a : Assumed}
    (h : w.lookups.directory.AgreesOn d (x.asksFor w.lookups a)) :
    (w.under d).resolveCall x a = w.resolveCall x a := by
  cases a with
  | system => exact Executor.system_under h
  | user p => exact Executor.identify_under h
  | anonymous => rfl
  | identity i => rfl

variable (w : World) (d : Directory)

theorem record_under (signs : List Sign) :
    (w.under d).record signs = (w.record signs).under d := by
  induction signs generalizing w with
  | nil => rfl
  | cons s signs ih =>
    cases s with
    | asked q => exact ih (w.write (.asked q))
    | told n => exact ih (w.tell n)

theorem enterSpan_under (s : Option Span) : (w.under d).enterSpan s = (w.enterSpan s).under d := by
  cases s <;> rfl

theorem exitSpan_under (s : Option Span) : (w.under d).exitSpan s = (w.exitSpan s).under d := by
  cases s <;> rfl

theorem install_under (c : Nat) (i : Identity) :
    (w.under d).install c i = ((w.install c i).1, (w.install c i).2.under d) := by
  -- neither the token nor the span of a call comes from the directory
  have hmint : (w.under d).mint i = ((w.mint i).1, (w.mint i).2.under d) := rfl
  have hspan : ∀ w : World, (w.under d).newSpan i = w.newSpan i := fun _ => rfl
  unfold install
  rw [hmint]
  dsimp only
  rw [hspan, enterSpan_under]
  rfl

theorem restore_under (h : Hold) (unwinding : Bool) :
    (w.under d).restore h unwinding = (w.restore h unwinding).under d := by
  have htold : (if unwinding then (w.under d).tell .unwinding else w.under d) =
      (if unwinding then w.tell .unwinding else w).under d := by
    cases unwinding <;> rfl
  have hcontext : ∀ w : World, (w.under d).context h.context = w.context h.context := fun _ => rfl
  unfold restore
  rw [htold]
  dsimp only
  rw [hcontext]
  split <;> rfl

theorem leave_under (mode : Mode) (a : Activation) (unwinding : Bool) :
    (w.under d).leave mode a unwinding = (w.leave mode a unwinding).under d := by
  cases mode with
  | sync =>
    show ((w.under d).restore a.hold unwinding).exitSpan a.span = _
    rw [restore_under, exitSpan_under]
    rfl
  | async =>
    show ((w.under d).exitSpan a.span).restore a.hold unwinding = _
    rw [exitSpan_under, restore_under]
    rfl

theorem enterAll_under (calls : List Activation) :
    (w.under d).enterAll calls = (w.enterAll calls).under d := by
  induction calls with
  | nil => rfl
  | cons a calls ih =>
    show ((w.under d).enterAll calls).enterSpan a.span = _
    rw [ih, enterSpan_under]
    rfl

theorem exitAll_under (calls : List Activation) :
    (w.under d).exitAll calls = (w.exitAll calls).under d := by
  induction calls generalizing w with
  | nil => rfl
  | cons a calls ih =>
    show ((w.under d).exitSpan a.span).exitAll calls = _
    rw [exitSpan_under, ih]
    rfl

theorem leaveAll_under (calls : List Activation) :
    (w.under d).leaveAll calls = (w.leaveAll calls).under d := by
  induction calls generalizing w with
  | nil => rfl
  | cons a calls ih =>
    show ((w.under d).leave .async a false).leaveAll calls = _
    rw [leave_under, ih]
    rfl

theorem cancel_under (calls : List Activation) :
    (w.under d).cancel calls = (w.cancel calls).under d := by
  show ((w.under d).enterAll calls).leaveAll calls = _
  rw [enterAll_under, leaveAll_under]
  rfl

theorem bound_under : (w.under d).bound = (w.bound.1, w.bound.2.under d) := by
  have hstrand : (w.under d).strand = w.strand := rfl
  unfold World.bound
  rw [hstrand]
  cases w.strand.bound <;> rfl

theorem numberSlot_under (t : Option Token) :
    (w.under d).numberSlot t = ((w.numberSlot t).1, (w.numberSlot t).2.under d) := by
  cases t with
  | none => rfl
  | some t =>
    unfold numberSlot number under
    dsimp only
    split <;> rfl

theorem survey_under (cs : List Nat) :
    (w.under d).survey cs = ((w.survey cs).1, (w.survey cs).2.under d) := by
  induction cs generalizing w with
  | nil => rfl
  | cons c cs ih =>
    have hcontext : (w.under d).context c = w.context c := rfl
    unfold survey
    dsimp only
    rw [hcontext, numberSlot_under, ih]
    rfl

theorem know_under (c : Nat) : (w.under d).know c = ((w.know c).1, (w.know c).2.under d) := by
  unfold know under
  dsimp only
  split <;> rfl

theorem note_under (place verb : String) (r : Report) :
    (w.under d).note place verb r = (w.note place verb r).under d := by
  show World.write ((w.under d).survey w.known).2 (.note ⟨_, _, _, ((w.under d).survey w.known).1⟩) = _
  rw [survey_under]
  rfl

theorem enter_under {w : World} {c : Call}
    (h : w.lookups.directory.AgreesOn d (x.asksFor w.lookups c.assumed)) :
    (w.under d).enter x c = ((w.enter x c).1, (w.enter x c).2.under d) := by
  unfold enter
  rw [resolveCall_under h]
  dsimp only
  rw [record_under]
  split
  · rw [install_under]
  · rfl
  · rfl

end World

theorem Op.become_under {x : Executor} {w : World} {d : Directory} {c : Nat} {p : String}
    (h : w.lookups.directory.AgreesOn d (x.asksAbout none p)) :
    performBecome x (w.under d) c p =
      ((performBecome x w c p).1, (performBecome x w c p).2.under d) := by
  have hlookups : (w.under d).lookups = w.lookups.under d := rfl
  unfold performBecome
  rw [hlookups, Executor.identify_under h]
  dsimp only
  rw [World.record_under]
  split <;> rfl

/-- An operation does under another directory what it does, and changes that directory too. -/
theorem Op.perform_under {x : Executor} {w : World} {d : Directory} {op : Op}
    (h : w.lookups.directory.AgreesOn d (op.asks x w.lookups)) :
    op.perform x (w.under d) = ((op.perform x w).1,
      (op.perform x w).2.under (d.after (op.arranges?.bind Lookups.Edit.directory?).toList)) := by
  cases op with
  | become c p => exact become_under h
  | resolve q =>
    show (((q.answer x (w.lookups.under d)).value,
      (w.under d).record (q.answer x (w.lookups.under d)).signs) : _ × World) = _
    rw [Query.answer_under h, World.record_under]
    rfl
  | arrange e =>
    show (((), { w with lookups := e.apply (w.lookups.under d) }) : Unit × World) = _
    rw [Lookups.apply_under]
    rfl
  | bound => exact w.bound_under d
  | number t => exact w.numberSlot_under d t
  | know c => exact w.know_under d c
  | note place verb r => exact congrArg ((), ·) (w.note_under d place verb r)
  | look | put | replace | push | pop | mint | newContext | bind | unbind | isBound | registered | met
  | known | label | labelled | mark | marks => rfl

/-! ### Machines -/

namespace Machine
variable {x : Executor} {m : Machine} {d : Directory}

/-- The machine with another directory. -/
def under (m : Machine) (d : Directory) : Machine := { m with world := m.world.under d }

theorem dropFuture_under (m : Machine) (d : Directory) (name : String) :
    (m.under d).dropFuture name = (m.dropFuture name).under d := by
  have hfutures : (m.under d).futures = m.futures := rfl
  unfold dropFuture
  rw [hfutures]
  split
  · exact congrArg (fun w => { m with world := w, futures := m.futures.erase name })
      (m.world.cancel_under d _)
  · rfl

theorem finish_under (m : Machine) (d : Directory) (e : Ending) :
    (m.under d).finish e = (m.finish e).under d := by
  obtain ⟨work, stack, w, futures, paused⟩ := m
  rcases stack with _ | ⟨mode, a⟩ | ⟨name, next⟩ | ⟨name, waiter, next⟩
  · rfl
  · exact congrArg (fun w => (⟨a.next e, _, w, futures, paused⟩ : Machine))
      (w.leave_under d mode a e.isPanic)
  · rfl
  · rfl

theorem call_under {mode : Mode} {c : Call} {body : Work} {next : Ending → Work}
    (h : m.world.lookups.directory.AgreesOn d (x.asksFor m.world.lookups c.assumed)) :
    (m.under d).call x mode c body next = (m.call x mode c body next).under d := by
  have hworld : (m.under d).world = m.world.under d := rfl
  unfold call
  rw [hworld, World.enter_under d h]
  rcases m.world.enter x c with ⟨⟨hold, span⟩ | e | text, w⟩ <;> rfl

theorem poll_under (m : Machine) (d : Directory) (name : String) (next : Polled → Work) :
    (m.under d).poll name next = (m.poll name next).under d := by
  have hfutures : (m.under d).futures = m.futures := rfl
  have hworld : (m.under d).world = m.world.under d := rfl
  unfold poll
  rw [hfutures, hworld]
  split
  · rfl
  · rw [World.enterAll_under]
    rfl

theorem yield_under (m : Machine) (d : Directory) (next : Work) :
    (m.under d).yield next = (m.yield next).under d := by
  obtain ⟨work, stack, w, futures, paused⟩ := m
  show (⟨work, stack, w.under d, futures, paused⟩ : Machine).yield next = _
  unfold yield
  dsimp only
  split
  · rfl
  · rename_i calls name polled rest _
    have hdrop := dropFuture_under ⟨work, stack, w.exitAll calls, futures, paused⟩ d name
    unfold under at hdrop
    rw [World.exitAll_under, hdrop]
    rfl

theorem thread_under (m : Machine) (d : Directory) (name : String) (inherits : Bool) (body : Work)
    (next : Waited → Work) :
    (m.under d).thread name inherits body next = (m.thread name inherits body next).under d := by
  cases inherits with
  | false => rfl
  | true =>
    have hworld : (m.under d).world = m.world.under d := rfl
    unfold thread
    rw [hworld, World.bound_under]
    rfl

theorem pause_under (m : Machine) (d : Directory) (next : Bool → Work) :
    (m.under d).pause next = (m.pause next).under d := by
  have hstack : (m.under d).stack = m.stack := rfl
  unfold pause
  rw [hstack]
  split <;> rfl

theorem resume_under (m : Machine) (d : Directory) (name : String) (next : Waited → Work) :
    (m.under d).resume name next = (m.resume name next).under d := by
  have hpaused : (m.under d).paused = m.paused := rfl
  unfold resume
  rw [hpaused]
  split <;> rfl

/-- A step does the same under a directory with the same entries behind what it asks. -/
theorem step_under (h : m.world.lookups.directory.AgreesOn d (m.asks x)) :
    (m.under d).step x = (m.step x).under (d.after m.edit?.toList) := by
  have hwork : (m.under d).work = m.work := rfl
  unfold edit? arranges?
  unfold asks at h
  unfold step
  rw [hwork]
  cases hm : m.work with
  | done e => exact m.finish_under d e
  | act op next =>
    rw [hm] at h
    dsimp only
    rw [show op.perform x (m.under d).world = _ from Op.perform_under h]
    rfl
  | call mode c body next =>
    rw [hm] at h
    exact call_under h
  | future name body next =>
    dsimp only
    rw [dropFuture_under]
    rfl
  | poll name next => exact m.poll_under d name next
  | drop name next =>
    dsimp only
    rw [dropFuture_under]
    rfl
  | yield next => exact m.yield_under d next
  | thread name inherits body next => exact m.thread_under d name inherits body next
  | pause next => exact m.pause_under d next
  | resume name next => exact m.resume_under d name next

theorem directory_run (x : Executor) (m : Machine) (n : Nat) :
    (m.run x n).world.lookups.directory = m.world.lookups.directory.after (m.edits x n) := by
  induction n with
  | zero => rfl
  | succ n ih =>
    rw [run_succ', (step_collaborators x _).2, edits_succ, edit?]
    unfold Directory.after at ih ⊢
    rw [List.foldl_append, ← ih]
    cases (m.run x n).arranges? with
    | none => rfl
    | some e => exact Lookups.directory_apply e _

/-- A run under a directory with the same entries behind all that is asked on the way. -/
theorem run_under {n : Nat}
    (h : ∀ k < n, m.world.lookups.directory.AgreesOn d ((m.run x k).asks x)) :
    (m.under d).run x n = (m.run x n).under (d.after (m.edits x n)) := by
  induction n with
  | zero => rfl
  | succ n ih =>
    -- the agreement of the beginning has outlived the changes of the run
    have hn : (m.run x n).world.lookups.directory.AgreesOn (d.after (m.edits x n))
        ((m.run x n).asks x) := by
      intro t u hq
      rw [directory_run]
      exact (h n (Nat.lt_succ_self n) t u hq).after _
    rw [run_succ', ih fun k hk => h k (Nat.lt_succ_of_lt hk), step_under hn, run_succ', edits_succ]
    unfold Directory.after
    rw [List.foldl_append]

/-- Two directories whose histories leave the same entries for a user, under a tenant and without, make
no difference to what is resolved for the user under that tenant, nor to a call or a `become` for them
in any state of a machine, nor to any run that asks about nobody else. So changes of other entries
might as well not have been made, those under tenants if no tenant is in question, and a tenant that is
named is not replaced by the default one. -/
theorem resolution_isolated {h₁ h₂ : List Directory.Edit} {t : Option Tenant} {p : String}
    (h : (Directory.empty.after h₁).Agrees (Directory.empty.after h₂) t p) (x : Executor)
    (names : Registry) :
    let l₁ := Lookups.ofStores (Directory.empty.after h₁) names
    let d₂ := Directory.empty.after h₂
    let l₂ := Lookups.ofStores d₂ names
    (∀ tenant, tenant.or x.defaultTenant = t →
      x.resolve l₂ tenant p = x.resolve l₁ tenant p ∧
        x.identify l₂ tenant p = x.identify l₁ tenant p) ∧
    (x.defaultTenant = t → names.name? x.config.systemKey = some p → x.system l₂ = x.system l₁) ∧
    (x.defaultTenant = t → ∀ a, a = .user p ∨ a = .system ∧ names.name? x.config.systemKey = some p →
      ∀ m₁ m₂ : Machine, m₁.world.lookups = l₁ → m₂.world.lookups = l₂ →
      let r := (m₁.world.resolveCall x a).value
      ∀ mode₁ mode₂ c₁ c₂ body₁ body₂ next₁ next₂,
        m₁.work = .call mode₁ ⟨c₁, a⟩ body₁ next₁ → m₂.work = .call mode₂ ⟨c₂, a⟩ body₂ next₂ →
        m₁.Opens x ⟨c₁, a⟩ body₁ next₁ r ∧ m₂.Opens x ⟨c₂, a⟩ body₂ next₂ r) ∧
    (x.defaultTenant = t →
      ∀ m₁ m₂ : Machine, m₁.world.lookups = l₁ → m₂.world.lookups = l₂ →
      let r := (m₁.world.resolveCall x (.user p)).value
      ∀ c₁ c₂ next₁ next₂, m₁.work = .act (.become c₁ p) next₁ → m₂.work = .act (.become c₂ p) next₂ →
        m₁.Becomes x c₁ next₁ r ∧ m₂.Becomes x c₂ next₂ r) ∧
    (∀ (m : Machine) n, m.world.lookups = l₁ →
      (∀ k < n, ∀ t' u, .roles t' u ∈ (m.run x k).asks x → t' = t ∧ u = p) →
      (m.under d₂).run x n = (m.run x n).under (d₂.after (m.edits x n))) ∧
    (∀ keep : Directory.Edit → Bool, (∀ e, e.key = (t, p) ∨ e.key = (none, p) → keep e = true) →
      ∀ tenant, tenant.or x.defaultTenant = t →
        x.resolve (.ofStores (Directory.empty.after (h₁.filter keep)) names) tenant p =
          x.resolve l₁ tenant p) ∧
    (x.defaultTenant = none → ∀ u,
      x.resolve (.ofStores (Directory.empty.after (h₁.filter (·.key.1 = none))) names) none u =
        x.resolve l₁ none u) ∧
    (∀ (x' : Executor) tenant u, x'.resolve l₁ (some tenant) u = x.resolve l₁ (some tenant) u ∧
      (x'.resolve l₁ (some tenant) u).questions = [.roles (some tenant) u]) := by
  intro l₁ d₂ l₂
  have hasks : x.defaultTenant = t → ∀ a,
      a = .user p ∨ a = .system ∧ names.name? x.config.systemKey = some p →
      l₁.directory.AgreesOn d₂ (x.asksFor l₁ a) := by
    rintro rfl a ha
    refine h.on fun t' u hq => Executor.asksFor_only ?_ hq
    exact ha.imp_right fun ⟨hsystem, hname⟩ => ⟨hsystem, congrArg Outcome.ok hname⟩
  have hcalls : x.defaultTenant = t → ∀ a,
      a = .user p ∨ a = .system ∧ names.name? x.config.systemKey = some p →
      ∀ w₁ w₂ : World, w₁.lookups = l₁ → w₂.lookups = l₂ →
      w₂.resolveCall x a = w₁.resolveCall x a := by
    intro ht a ha w₁ w₂ hw₁ hw₂
    have hunder : (w₁.under d₂).resolveCall x a = w₁.resolveCall x a :=
      World.resolveCall_under (hw₁ ▸ hasks ht a ha)
    refine (World.resolveCall_congr ?_ a).trans hunder
    show w₂.lookups = w₁.lookups.under d₂
    rw [hw₁, hw₂]
    rfl
  refine ⟨?_, ?_, ?_, ?_, ?_, ?_, ?_,
    fun x' tenant u => ⟨rfl, x'.resolve_questions l₁ (some tenant) u⟩⟩
  · rintro tenant rfl
    exact ⟨Executor.resolve_under (l := l₁) h,
      Executor.identify_under (l := l₁) (h.on fun _ _ => Executor.asksAbout_only)⟩
  · intro ht hname
    exact Executor.system_under (hasks ht .system (.inr ⟨rfl, hname⟩))
  · intro ht a ha m₁ m₂ hm₁ hm₂ r mode₁ mode₂ c₁ c₂ body₁ body₂ next₁ next₂ hw₁ hw₂
    refine ⟨call_opens hw₁, ?_⟩
    have hr : (m₂.world.resolveCall x a).value = r :=
      congrArg Traced.value (hcalls ht a ha m₁.world m₂.world hm₁ hm₂)
    exact hr ▸ call_opens hw₂
  · intro ht m₁ m₂ hm₁ hm₂ r c₁ c₂ next₁ next₂ hw₁ hw₂
    refine ⟨become_becomes hw₁, ?_⟩
    have hr : (m₂.world.resolveCall x (.user p)).value = r :=
      congrArg Traced.value (hcalls ht (.user p) (.inl rfl) m₁.world m₂.world hm₁ hm₂)
    exact hr ▸ become_becomes hw₂
  · intro m n hm hq
    refine run_under fun k hk => ?_
    rw [hm]
    exact h.on (hq k hk)
  · rintro keep hkeep tenant rfl
    exact Executor.resolve_under (l := l₁) (.filter hkeep h₁)
  · intro ht u
    refine Executor.resolve_under (l := l₁) ?_
    rw [ht]
    refine .filter (fun e he => ?_) h₁
    have hkey : e.key = (none, u) := he.elim id id
    simp [hkey]

/-- A user, and inside them the system, who has the same name. -/
def selfWithin : Work :=
  .call .sync ⟨0, .user "ann"⟩ (.call .async ⟨0, .system⟩ (.done (.ok .null)) .done) .done

theorem resolution_isolated_selfWithin :
    let acme : Tenant := ⟨"acme", by decide⟩
    let globex : Tenant := ⟨"globex", by decide⟩
    let h₁ : List Directory.Edit := [.set (some acme) "ann" ["Boss"], .set none "ann" ["Reader"],
      .remove (some acme) "ann", .set (some acme) "bob" ["Boss"]]
    let h₂ : List Directory.Edit := [.set none "ann" ["Reader"], .set (some globex) "ann" ["Boss"]]
    let x := Executor.ofConfig { Config.default with defaultTenant := some acme }
    let names := Registry.empty.register "singleTenantAdminUserName" "ann"
    let l := Lookups.ofStores (Directory.empty.after h₁) names
    let m := start selfWithin (.start .empty 0 l false)
    (Directory.empty.after h₁).Agrees (Directory.empty.after h₂) (some acme) "ann" ∧
      (x.system (.ofStores (Directory.empty.after h₂) names)).value =
        .ok ⟨"ann", .ofList ["Reader"], .system⟩ ∧
      (((m.under (Directory.empty.after h₂)).run x 2).world.context 0).visible =
        some ⟨1, "ann", .ofList ["Reader"], .system⟩ := by
  intro acme globex h₁ h₂ x names l m
  have h : (Directory.empty.after h₁).Agrees (Directory.empty.after h₂) (some acme) "ann" :=
    ⟨by decide, by decide⟩
  obtain ⟨-, hsystem, -, -, hrun, -⟩ := resolution_isolated h x names
  have hasks : ∀ k < 2, ∀ t u, .roles t u ∈ (m.run x k).asks x → t = some acme ∧ u = "ann" := by
    have hall : ∀ k < 2, ∀ q ∈ (m.run x k).asks x,
        q = .roles (some acme) "ann" ∨ q = .name "singleTenantAdminUserName" := by decide
    intro k hk t u hq
    rcases hall k hk _ hq with hq | hq <;> cases hq
    exact ⟨rfl, rfl⟩
  have hsame := hrun m 2 rfl hasks
  refine ⟨h, ?_, ?_⟩
  · rw [hsystem rfl (by decide)]
    decide
  · rw [hsame]
    decide

end Machine
end Guise

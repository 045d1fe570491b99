import Guise.Proofs.Program

/-!
# When an identity cannot be resolved

`Executor.Fails` and `Executor.Panics` list what can go wrong between a principal and its identity, by
the answers of the collaborators: no name for the system, roles that are unavailable or malformed, a
blank role anywhere among them, a panic of either collaborator. All of it comes before a frame is
pushed or a slot is written, so a call or a `become` that meets it changes no context, and the work of
the call is not part of the machine after the step (`Machine.PassesOver`).
-/

namespace Guise

namespace Outcome
variable {ε α β : Type} {o : Outcome ε α} {f : α → β}

theorem andThen_ok_eq_error {e : ε} : o.andThen (fun a => .ok (f a)) = .error e ↔ o = .error e := by
  cases o <;> simp [andThen]

theorem andThen_ok_eq_panic {text : String} :
    o.andThen (fun a => .ok (f a)) = .panic text ↔ o = .panic text := by
  cases o <;> simp [andThen]

end Outcome

/-- Why the roles that a directory answers for a principal make no set of authorities. -/
inductive Lookups.Refused (l : Lookups) (tenant : Option Tenant) (p : String) : ResolutionError → Prop
  | unavailable (reason : String) : l.roles tenant p = .error (.unavailable reason) →
      Refused l tenant p (.unavailable p reason)
  | malformed (reason : String) : l.roles tenant p = .error (.malformed reason) →
      Refused l tenant p (.malformed p reason)
  | blank (roles : List String) (r : String) : l.roles tenant p = .ok roles → r ∈ roles →
      Text.isBlank r = true → Refused l tenant p (.malformed p "blank role name")

namespace Executor
variable {x : Executor} {l : Lookups}

theorem resolve_error_iff {tenant : Option Tenant} {p : String} {e : ResolutionError} :
    (x.resolve l tenant p).value = .error e ↔ l.Refused (tenant.or x.defaultTenant) p e := by
  constructor
  · intro h
    simp only [resolve] at h
    split at h <;> rename_i hroles
    · split at h <;> rename_i hblank
      · cases h
        obtain ⟨r, hr, hrb⟩ := List.any_eq_true.1 hblank
        exact .blank _ r hroles hr hrb
      · cases h
    · cases h
    · cases h
      exact .unavailable _ hroles
    · cases h
      exact .malformed _ hroles
    · cases h
  · intro h
    cases h with
    | unavailable reason h => simp [resolve, h]
    | malformed reason h => simp [resolve, h]
    | blank roles r h hr hrb =>
      have hblank : roles.any Text.isBlank = true := List.any_eq_true.2 ⟨r, hr, hrb⟩
      simp [resolve, h, hblank]

theorem resolve_panic_iff {tenant : Option Tenant} {p text : String} :
    (x.resolve l tenant p).value = .panic text ↔
      l.roles (tenant.or x.defaultTenant) p = .panic text := by
  constructor
  · intro h
    simp only [resolve] at h
    split at h <;> rename_i hroles
    · split at h <;> cases h
    · cases h
    · cases h
    · cases h
    · cases h
      exact hroles
  · intro h
    simp [resolve, h]

/-- Why there is no identity for whom a call assumes. -/
def Fails (x : Executor) (l : Lookups) : Assumed → ResolutionError → Prop
  | .system, e =>
    l.name x.config.systemKey = .ok none ∧ e = .noSystemPrincipal x.config.systemKey ∨
      ∃ p, l.name x.config.systemKey = .ok (some p) ∧ l.Refused x.defaultTenant p e
  | .user p, e => p ≠ x.config.anonymousUser ∧ l.Refused x.defaultTenant p e
  | .anonymous, _ | .identity _, _ => False

/-- A collaborator panics on the way to the identity of whom a call assumes. -/
def Panics (x : Executor) (l : Lookups) : Assumed → String → Prop
  | .system, text =>
    l.name x.config.systemKey = .panic text ∨
      ∃ p, l.name x.config.systemKey = .ok (some p) ∧ l.roles x.defaultTenant p = .panic text
  | .user p, text => p ≠ x.config.anonymousUser ∧ l.roles x.defaultTenant p = .panic text
  | .anonymous, _ | .identity _, _ => False

theorem system_value (x : Executor) (l : Lookups) : (x.system l).value =
    match l.name x.config.systemKey with
    | .ok (some p) => (x.resolve l none p).value.andThen fun found => .ok ⟨p, found, .system⟩
    | .ok none => .error (.noSystemPrincipal x.config.systemKey)
    | .panic text => .panic text := by
  unfold system systemPrincipal
  split <;> rename_i hname <;> simp only [hname]

theorem identify_value (x : Executor) (l : Lookups) (tenant : Option Tenant) (p : String) :
    (x.identify l tenant p).value = if p = x.config.anonymousUser then .ok x.anonymous else
      (x.resolve l tenant p).value.andThen fun found => .ok ⟨p, found, .user⟩ := by
  unfold identify
  split <;> rfl

end Executor

namespace World
variable {x : Executor} {w : World} {a : Assumed}

theorem resolveCall_error_iff {e : ResolutionError} :
    (w.resolveCall x a).value = .error e ↔ x.Fails w.lookups a e := by
  cases a with
  | system =>
    show (x.system w.lookups).value = _ ↔ _
    rw [Executor.system_value]
    unfold Executor.Fails
    split <;> rename_i hname
    · simp [hname, Outcome.andThen_ok_eq_error, Executor.resolve_error_iff]
    · simp [hname, eq_comm]
    · simp [hname]
  | user p =>
    show (x.identify w.lookups none p).value = _ ↔ _
    rw [Executor.identify_value]
    unfold Executor.Fails
    split <;> rename_i hp
    · simp [hp]
    · simp [hp, Outcome.andThen_ok_eq_error, Executor.resolve_error_iff]
  | anonymous => simp [resolveCall, Executor.Fails]
  | identity i => simp [resolveCall, Executor.Fails]

theorem resolveCall_panic_iff {text : String} :
    (w.resolveCall x a).value = .panic text ↔ x.Panics w.lookups a text := by
  cases a with
  | system =>
    show (x.system w.lookups).value = _ ↔ _
    rw [Executor.system_value]
    unfold Executor.Panics
    split <;> rename_i hname
    · simp [hname, Outcome.andThen_ok_eq_panic, Executor.resolve_panic_iff]
    · simp [hname]
    · simp [hname]
  | user p =>
    show (x.identify w.lookups none p).value = _ ↔ _
    rw [Executor.identify_value]
    unfold Executor.Panics
    split <;> rename_i hp
    · simp [hp]
    · simp [hp, Outcome.andThen_ok_eq_panic, Executor.resolve_panic_iff]
  | anonymous => simp [resolveCall, Executor.Panics]
  | identity i => simp [resolveCall, Executor.Panics]

end World

namespace Machine
variable {x : Executor} {m m' : Machine} {work : Work}

/-- A machine goes on with other work and has changed nothing else but the log. -/
def PassesOver (m : Machine) (work : Work) (m' : Machine) : Prop :=
  ∃ w, m' = { m with work := work, world := w } ∧ m.world.Quiet w

section Call
variable {mode : Mode} {c : Call} {body : Work} {next : Ending → Work}
  (hm : m.work = .call mode c body next)
include hm

/-- A call whose identity cannot be resolved is passed over, its work included. -/
theorem call_passesOver {e : Ending} (he : (m.world.resolveCall x c.assumed).value.failure? = some e) :
    m.PassesOver (next e) (m.step x) := by
  rcases World.enter_ok_or_failed x m.world c with ⟨hold, span, w, h⟩ | ⟨o, e', w, h, he'⟩
  · obtain ⟨i, hv, -⟩ := World.enter_ok h
    rw [hv] at he
    cases he
  · obtain ⟨hv, hq⟩ := World.enter_failed h he'
    obtain rfl : e' = e := Option.some.inj (hv.symm.trans he)
    exact ⟨w, step_call_failed hm h he', hq⟩

/-- A call whose identity is resolved starts its work under a new frame that shows it. -/
theorem call_starts {i : Identity} (hv : (m.world.resolveCall x c.assumed).value = .ok i) :
    ∃ a w, m.step x = { m with work := body, stack := .running mode a :: m.stack, world := w } ∧
      a.hold = ⟨c.context, (m.world.context c.context).next⟩ ∧ a.next = next ∧
      (m.world.pushed c.context i).Quiet w := by
  rcases World.enter_ok_or_failed x m.world c with ⟨hold, span, w, h⟩ | ⟨o, e, w, h, he⟩
  · obtain ⟨j, hj, hhold, hq⟩ := World.enter_ok h
    rw [hv] at hj
    cases hj
    exact ⟨⟨hold, span, next⟩, w, step_call_ok hm h, hhold, rfl, hq⟩
  · have hfailed := (World.enter_failed h he).1
    rw [hv] at hfailed
    cases hfailed

end Call

theorem become_passesOver {c : Nat} {p : String} {next : Outcome ResolutionError (Option Token) → Work}
    (hm : m.work = .act (.become c p) next) :
    match (m.world.resolveCall x (.user p)).value with
    | .error e => m.PassesOver (next (.error e)) (m.step x)
    | .panic text => m.PassesOver (next (.panic text)) (m.step x)
    | .ok i => ∃ w, m.step x = { m with work := next (.ok (m.world.context c).visible), world := w } ∧
        ((m.world.mint i).2.setContext c ((m.world.context c).put (some ⟨m.world.tokenCount, i⟩))).Quiet
          w := by
  have hb := Op.performBecome_cases x m.world c p
  have hstep : m.step x = { m with
      work := next (Op.performBecome x m.world c p).1
      world := (Op.performBecome x m.world c p).2 } := by
    simp only [step, hm]
    rfl
  show match (x.identify m.world.lookups none p).value with | .error e => _ | .panic text => _ | .ok i => _
  split at hb <;> rename_i hv <;> simp only [hv] <;> rw [hstep, hb.1] <;> exact ⟨_, rfl, hb.2⟩

/-- A call or a `become` for which a collaborator fails or panics changes no context, and the work of
the call is never begun: whoever made it goes on with that failure, or with that panic. Otherwise, and
only then, the work begins, with the resolved identity on a new frame on top. The same holds of a
future, which resolves when it is polled first, and of a call inside another, whose identity still shows
after the failure. -/
theorem failed_resolution_atomic (x : Executor) (m : Machine) :
    (∀ a e, (m.world.resolveCall x a).value = .error e ↔ x.Fails m.world.lookups a e) ∧
    (∀ a text, (m.world.resolveCall x a).value = .panic text ↔ x.Panics m.world.lookups a text) ∧
    (∀ mode c body next, m.work = .call mode c body next →
      match (m.world.resolveCall x c.assumed).value with
      | .error e => m.PassesOver (next (.error (.resolution e))) (m.step x)
      | .panic text => m.PassesOver (next (.panic text)) (m.step x)
      | .ok i => ∃ a w,
          m.step x = { m with work := body, stack := .running mode a :: m.stack, world := w } ∧
          a.hold = ⟨c.context, (m.world.context c.context).next⟩ ∧ a.next = next ∧
          ((m.world.context c.context).Reachable →
            a.hold.frame ∉ (m.world.context c.context).numbers) ∧
          ∀ d, w.context d = if c.context = d then
            ((m.world.context d).push (some ⟨m.world.tokenCount, i⟩)).2 else m.world.context d) ∧
    (∀ c p next, m.work = .act (.become c p) next →
      match (m.world.resolveCall x (.user p)).value with
      | .error e => m.PassesOver (next (.error e)) (m.step x)
      | .panic text => m.PassesOver (next (.panic text)) (m.step x)
      | .ok i => ∃ w, m.step x = { m with work := next (.ok (m.world.context c).visible), world := w } ∧
          ∀ d, w.context d = if c = d then (m.world.context d).put (some ⟨m.world.tokenCount, i⟩)
            else m.world.context d) ∧
    (∀ name c body next e, m.work = .poll name next →
      m.futures.find? name = some ⟨.call .async c body .done, []⟩ →
      (m.world.resolveCall x c.assumed).value.failure? = some e →
      { m with futures := m.futures.erase name }.PassesOver (next (.ready e)) (m.run x 3)) ∧
    (∀ mode c mode' c' body next next' i e,
      m.work = .call mode c (.call mode' c' body next') next →
      (m.world.resolveCall x c.assumed).value = .ok i →
      (m.world.resolveCall x c'.assumed).value.failure? = some e →
      ∃ a w, m.run x 2 = { m with work := next' e, stack := .running mode a :: m.stack, world := w } ∧
        (w.context c.context).visible = some ⟨m.world.tokenCount, i⟩) := by
  refine ⟨fun _ _ => World.resolveCall_error_iff, fun _ _ => World.resolveCall_panic_iff, ?_, ?_, ?_, ?_⟩
  · intro mode c body next hm
    split <;> rename_i hv
    · exact call_passesOver hm (by rw [hv]; rfl)
    · exact call_passesOver hm (by rw [hv]; rfl)
    · obtain ⟨a, w, hstep, hhold, hnext, hq⟩ := call_starts hm hv
      refine ⟨a, w, hstep, hhold, hnext, fun hr hmem => ?_, fun d => ?_⟩
      · rw [hhold] at hmem
        exact Nat.lt_irrefl _ (hr.wellNumbered.below _ hmem)
      · rw [hq.context, World.context_pushed]
  · intro c p next hm
    have h := become_passesOver (x := x) hm
    split <;> rename_i hv <;> simp only [hv] at h
    · exact h
    · exact h
    · obtain ⟨w, hstep, hq⟩ := h
      refine ⟨w, hstep, fun d => ?_⟩
      rw [hq.context, World.context_setContext]
      split
      · rename_i hd; rw [hd]
      · rfl
  · intro name c body next e hm hf he
    let m₁ := m.step x
    have hpoll : m₁ = ⟨.call .async c body .done, .polling name next :: m.stack, m.world,
        m.futures.erase name, m.paused⟩ := by
      simp [m₁, step, hm, poll, hf, World.enterAll]
    obtain ⟨w, hw, hq⟩ := call_passesOver (m := m₁) (x := x) (by rw [hpoll]) (by rw [hpoll]; exact he)
    refine ⟨w, ?_, ?_⟩
    · rw [run_succ, run_succ, run_succ, hw, hpoll]
      rfl
    · rw [hpoll] at hq
      exact hq
  · intro mode c mode' c' body next next' i e hm hv he
    obtain ⟨a, w, hstep, -, -, hq⟩ := call_starts (x := x) hm hv
    have hlookups : (m.step x).world.lookups = m.world.lookups := by
      rw [hstep]
      exact hq.lookups
    have he' : ((m.step x).world.resolveCall x c'.assumed).value.failure? = some e := by
      rw [World.resolveCall_congr hlookups]
      exact he
    obtain ⟨w', hw', hq'⟩ := call_passesOver (m := m.step x) (x := x) (by rw [hstep]) he'
    refine ⟨a, w', ?_, ?_⟩
    · rw [run_succ, run_succ, hw', hstep]
      rfl
    · rw [hstep] at hq'
      rw [hq'.context, hq.context, World.context_pushed, if_pos rfl]
      rfl

/-- A user call inside an anonymous one, while the directory answers with a blank role. -/
def refusedWithin : Work :=
  .call .sync ⟨0, .anonymous⟩ (.call .async ⟨0, .user "suzy"⟩ (.done (.ok .null)) .done) .done

theorem failed_resolution_atomic_refusedWithin :
    let x := Executor.ofConfig .default
    let l : Lookups := { Lookups.ofStores .empty .empty with
      disturbedRoles := fun _ _ => some (.ok ["editor", " "]) }
    let m := start refusedWithin (.start .empty 0 l false)
    x.Fails l (.user "suzy") (.malformed "suzy" "blank role name") ∧
      ∃ a w, m.run x 2 = { m with
          work := .done (.error (.resolution (.malformed "suzy" "blank role name")))
          stack := [.running .sync a], world := w } ∧
        (w.context 0).visible = some ⟨0, x.anonymous⟩ := by
  intro x l m
  have hfails : x.Fails l (.user "suzy") (.malformed "suzy" "blank role name") :=
    ⟨by decide, .blank ["editor", " "] " " rfl (by simp) (by decide)⟩
  obtain ⟨herror, -, -, -, -, hnested⟩ := failed_resolution_atomic x m
  have hv := (herror (.user "suzy") _).2 hfails
  exact ⟨hfails, hnested _ _ _ _ _ _ _ _ _ rfl rfl (by rw [hv]; rfl)⟩

end Machine
end Guise

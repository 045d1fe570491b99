import Guise.Proofs.Layers
import Guise.Proofs.Strands

/-!
# Which context a thread is bound to

`Machine.binding` is the binding of the running thread after its next step, and no other thread's
binding changes (`Shift.bound`). So a thread that is bound to a context was handed it (`Machine.Hands`),
by binding it or by being started with it, or it made that context itself when it asked for one and had
none (`Machine.Makes`): `bound_origin` carries this along a run. A context is made once, by one thread;
so of two threads that are bound to one context at any times, one was handed it.
-/

namespace Guise

/-- The context that an operation binds the running thread to. -/
def Op.binds? : Op → Option Nat
  | .bind c => some c
  | _ => none

namespace World
variable {w : World} {c : Nat}

theorem bound_of_some (h : w.strand.bound = some c) : w.bound = (c, w) := by
  unfold bound
  rw [h]

theorem bound_of_none (h : w.strand.bound = none) : w.bound.1 = w.contextCount ∧
    w.bound.2.contextCount = w.contextCount + 1 ∧
    ∀ d, w.bound.2.context d = if w.contextCount = d then .empty else w.context d := by
  unfold bound
  rw [h]
  exact ⟨rfl, rfl, fun d => context_setContext w w.contextCount d .empty⟩

end World

namespace Machine
variable {x : Executor} {m m' : Machine} {work : Work} {w : World} {n t u c : Nat}

/-- The next step asks for the bound context, for work or for a thread that is to inherit it. -/
def Asks (m : Machine) : Prop :=
  match m.work with
  | .act .bound _ | .thread _ true _ _ => True
  | _ => False

/-- The next step is one of the four that may change a binding. -/
def Rebinds (m : Machine) : Prop :=
  match m.work with
  | .act .bound _ | .thread _ true _ _ | .act (.bind _) _ | .act .unbind _ => True
  | _ => False

/-- The next step gives a thread the context that it asks for. -/
def Obtains (t c : Nat) (m : Machine) : Prop :=
  m.world.running = t ∧ (∃ next, m.work = .act .bound next) ∧ m.world.bound.1 = c

/-- The next step hands a thread a context: the thread binds it, or is started with it. -/
def Hands (t c : Nat) (m : Machine) : Prop :=
  (m.world.running = t ∧ ∃ next, m.work = .act (.bind c) next) ∨
    m.world.threadCount = t ∧ (∃ name body next, m.work = .thread name true body next) ∧
      m.world.bound.1 = c

/-- The next step makes a context for a thread that asks for one and is unbound. -/
def Makes (t c : Nat) (m : Machine) : Prop :=
  m.world.running = t ∧ m.Asks ∧ m.world.strand.bound = none ∧ m.world.contextCount = c

/-- The next step binds no context that is not made. -/
def Knowing (m : Machine) : Prop :=
  m.work.Next (fun op => ∀ c ∈ op.binds?, c < m.world.contextCount) fun _ => True

instance (m : Machine) : Decidable m.Knowing := inferInstanceAs (Decidable (m.work.Next _ _))

theorem binding_of_not_rebinds (h : ¬ m.Rebinds) : m.binding = m.world.strand.bound := by
  unfold binding
  split <;> rename_i hm
  · rename_i op next
    simp only [Rebinds, hm] at h
    cases op <;> first | rfl | exact absurd trivial h
  · simp only [Rebinds, hm, not_true] at h
  · rfl

/-- What the running thread is bound to after a step it was bound to before, or it bound it, or it
asked for it. -/
theorem binding_origin (h : m.binding = some c) :
    m.world.strand.bound = some c ∨ Hands m.world.running c m ∨ m.Asks ∧ m.world.bound.1 = c := by
  unfold binding at h
  split at h <;> rename_i hm
  · rename_i op next
    cases op with
    | bound => exact .inr (.inr ⟨by simp only [Asks, hm], Option.some.inj h⟩)
    | bind d =>
      obtain rfl : d = c := Option.some.inj h
      exact .inr (.inl (.inl ⟨rfl, next, hm⟩))
    | unbind => cases h
    | _ => exact .inl h
  · exact .inr (.inr ⟨by simp only [Asks, hm], Option.some.inj h⟩)
  · exact .inl h

theorem Makes.of_asks (ha : m.Asks) (hc : m.world.bound.1 = c) :
    m.world.strand.bound = some c ∨ Makes m.world.running c m := by
  rcases hb : m.world.strand.bound with _ | d
  · exact .inr ⟨rfl, ha, hb, hc ▸ (World.bound_of_none hb).1.symm⟩
  · rw [World.bound_of_some hb] at hc
    exact .inl (congrArg some hc)

/-- A thread that is bound to a context after a step was bound to it before, was handed it, or made
it. -/
theorem Shift.bound_origin (hs : Shift m m') (hb : (m'.world.thread t).bound = some c) :
    (m.world.thread t).bound = some c ∨ Hands t c m ∨ Makes t c m := by
  have hown : ∀ u, m.world.running = u → m.binding = some c →
      (m.world.thread u).bound = some c ∨ Hands u c m ∨ Makes u c m := by
    rintro _ rfl h
    rcases binding_origin h with hold | hhand | ⟨ha, hc⟩
    · exact .inl hold
    · exact .inr (.inl hhand)
    · exact (Makes.of_asks ha hc).imp_right .inr
  have hself : ∀ s, m.world.Strung s m'.world → s.bound = m.binding →
      (m.world.thread t).bound = some c ∨ Hands t c m ∨ Makes t c m := by
    intro s hw hsb
    rw [hw.thread] at hb
    split at hb <;> rename_i hr
    · exact hown t hr (hsb ▸ hb)
    · exact .inl hb
  cases hs with
  | pushed ls r rest _ _ hw => exact hself _ hw rfl
  | popped calls l r rest _ _ _ hbind hw => exact hself _ hw hbind.symm
  | begun name inherits body next w₁ hm _ hw hm' =>
    rw [hm', World.thread_startThread, hw.threadCount] at hb
    split at hb <;> rename_i ht
    · -- the new thread has what its parent is bound to by now
      cases inherits with
      | false => cases hb
      | true =>
        refine .inr (.inl (.inr ⟨ht, ⟨name, body, next, hm⟩, ?_⟩))
        simpa only [binding, hm, if_true, Option.some.injEq] using hb
    · rw [hw.thread] at hb
      split at hb <;> rename_i hr
      · exact hown t hr hb
      · exact .inl hb
  | ended u _ _ hm | passed u _ _ hm =>
    rw [hm] at hb
    exact .inl hb

/-! ### Steps that bind -/

theorem rebinds_of_ne (x : Executor) (ht : t < m.world.threadCount)
    (hne : ((m.step x).world.thread t).bound ≠ (m.world.thread t).bound) :
    t = m.world.running ∧ m.Rebinds ∧ ((m.step x).world.thread t).bound = m.binding := by
  have hafter := (step_shift x m).bound ht
  by_cases hr : m.world.running = t
  · rw [if_pos hr] at hafter
    have hrebinds : m.Rebinds := by
      by_contra hno
      rw [binding_of_not_rebinds hno, World.strand, hr] at hafter
      exact hne hafter
    exact ⟨hr.symm, hrebinds, hafter⟩
  · rw [if_neg hr] at hafter
    exact absurd hafter hne

theorem step_plain_thread {name : String} {body : Work} {next : Waited → Work} (x : Executor)
    (hm : m.work = .thread name false body next) :
    (m.step x).work = body ∧ (m.step x).world.running = m.world.threadCount ∧
      (m.step x).world.strand.bound = none := by
  have hstep : m.step x = m.thread name false body next := by simp only [step, hm]
  rw [hstep]
  exact ⟨rfl, rfl, congrArg Strand.bound (World.strand_startThread m.world .fresh)⟩

theorem step_inheriting_thread {name : String} {body : Work} {next : Waited → Work} (x : Executor)
    (hm : m.work = .thread name true body next) (hr : m.world.running < m.world.threadCount) :
    (m.step x).work = body ∧ (m.step x).world.running = m.world.threadCount ∧
      (m.step x).world.strand.bound = some m.world.bound.1 ∧
      ((m.step x).world.thread m.world.running).bound = some m.world.bound.1 := by
  have hparent := (step_shift x m).bound hr
  rw [if_pos rfl] at hparent
  simp only [binding, hm] at hparent
  have hstep : m.step x = m.thread name true body next := by simp only [step, hm]
  have hbound := World.Strung.bound m.world
  refine ⟨?_, ?_, ?_, hparent⟩
  · rw [hstep]
    rfl
  · rw [hstep]
    exact hbound.threadCount
  · rw [hstep]
    exact congrArg Strand.bound (World.strand_startThread m.world.bound.2 _)

theorem step_bound {next : Nat → Work} (x : Executor) (hm : m.work = .act .bound next) :
    (m.step x).work = next m.world.bound.1 ∧ (m.step x).world = m.world.bound.2 := by
  simp only [step, hm]
  exact ⟨rfl, rfl⟩

/-! ### Runs -/

theorem run_contexts_le (x : Executor) (work : Work) (w : World) {k n : Nat} (h : k ≤ n) :
    ((start work w).run x k).world.contextCount ≤ ((start work w).run x n).world.contextCount := by
  induction h with
  | refl => exact Nat.le_refl _
  | step _ ih => exact Nat.le_trans ih (run_turn x work w _).grows.1

theorem contextCount_makes (h : Makes t c m) : (m.step x).world.contextCount = c + 1 := by
  obtain ⟨-, ha, hb, rfl⟩ := h
  have hcount := (World.bound_of_none hb).2.1
  unfold Asks at ha
  split at ha <;> rename_i hm
  · simp only [step, hm]
    exact hcount
  · simp only [step, hm]
    exact hcount
  · cases ha

/-- A context is made once. -/
theorem makes_unique {j k : Nat} (hj : Makes t c ((start work w).run x j))
    (hk : Makes u c ((start work w).run x k)) : t = u := by
  have hlater : ∀ {t u i l : Nat}, Makes t c ((start work w).run x i) →
      Makes u c ((start work w).run x l) → ¬ i < l := by
    intro t u i l hi hl hlt
    have hcount := contextCount_makes (x := x) hi
    rw [← run_succ'] at hcount
    have hle := run_contexts_le x work w (Nat.succ_le_of_lt hlt)
    rw [hcount, hl.2.2.2] at hle
    exact Nat.not_succ_le_self c hle
  obtain rfl : j = k := Nat.le_antisymm (Nat.not_lt.1 (hlater hk hj)) (Nat.not_lt.1 (hlater hj hk))
  exact hj.1.symm.trans hk.1

/-- What a thread is bound to it was handed before, or it made it before. -/
theorem bound_origin (hb : ∀ t, (w.thread t).bound = none)
    (h : (((start work w).run x n).world.thread t).bound = some c) :
    ∃ k < n, Hands t c ((start work w).run x k) ∨ Makes t c ((start work w).run x k) := by
  induction n with
  | zero =>
    have hnone := hb t
    rw [show (w.thread t).bound = some c from h] at hnone
    cases hnone
  | succ n ih =>
    rw [run_succ'] at h
    rcases (step_shift x _).bound_origin h with hold | hnew
    · obtain ⟨k, hk, ho⟩ := ih hold
      exact ⟨k, Nat.lt_succ_of_lt hk, ho⟩
    · exact ⟨n, Nat.lt_succ_self n, hnew⟩

theorem obtained_origin (hb : ∀ t, (w.thread t).bound = none)
    (h : Obtains t c ((start work w).run x n)) :
    (∃ k < n, Hands t c ((start work w).run x k)) ∨ ∃ k, Makes t c ((start work w).run x k) := by
  obtain ⟨rfl, ⟨next, hm⟩, hc⟩ := h
  have ha : ((start work w).run x n).Asks := by simp only [Asks, hm]
  rcases Makes.of_asks ha hc with hold | hmake
  · obtain ⟨k, hk, hhand | hmake⟩ := bound_origin hb hold
    · exact .inl ⟨k, hk, hhand⟩
    · exact .inr ⟨k, hmake⟩
  · exact .inr ⟨n, hmake⟩

/-- Of two threads that get one context, one was handed it. -/
theorem handed_of_obtained (hb : ∀ t, (w.thread t).bound = none) {j k : Nat} (hne : t ≠ u)
    (ht : Obtains t c ((start work w).run x j)) (hu : Obtains u c ((start work w).run x k)) :
    (∃ i < j, Hands t c ((start work w).run x i)) ∨
      ∃ i < k, Hands u c ((start work w).run x i) := by
  rcases obtained_origin hb ht with hhand | ⟨i, hi⟩
  · exact .inl hhand
  · rcases obtained_origin hb hu with hhand | ⟨l, hl⟩
    · exact .inr hhand
    · exact absurd (makes_unique hi hl) hne

/-- Every context that a thread is bound to is made. -/
theorem bound_made (hb : ∀ t, (w.thread t).bound = none)
    (ho : ∀ k < n, ((start work w).run x k).Knowing)
    (h : (((start work w).run x n).world.thread t).bound = some c) :
    c < ((start work w).run x n).world.contextCount := by
  induction n generalizing t with
  | zero =>
    have hnone := hb t
    rw [show (w.thread t).bound = some c from h] at hnone
    cases hnone
  | succ n ih =>
    have ih := fun u hu => ih (t := u) (fun k hk => ho k (Nat.lt_succ_of_lt hk)) hu
    have hle := run_contexts_le x work w (Nat.le_succ n)
    have hn := ho n (Nat.lt_succ_self n)
    have hasked : ((start work w).run x n).Asks →
        ((start work w).run x n).world.bound.1 = c →
          c < ((start work w).run x (n + 1)).world.contextCount := by
      intro ha hc
      rcases Makes.of_asks ha hc with hold | hmake
      · exact Nat.lt_of_lt_of_le (ih _ hold) hle
      · rw [run_succ', contextCount_makes hmake]
        exact Nat.lt_succ_self c
    rw [run_succ'] at h
    rcases (step_shift x _).bound_origin h with
      hold | (⟨-, next, hm⟩ | ⟨-, ⟨name, body, next, hm⟩, hc⟩) | hmake
    · exact Nat.lt_of_lt_of_le (ih t hold) hle
    · rw [Knowing, hm] at hn
      exact Nat.lt_of_lt_of_le (hn c rfl) hle
    · exact hasked (by simp only [Asks, hm]) hc
    · rw [run_succ', contextCount_makes hmake]
      exact Nat.lt_succ_self c

/-- Step `n` makes a context: it is empty, and none that existed or that any thread was bound to at any
time before. -/
structure New (x : Executor) (m : Machine) (n c : Nat) : Prop where
  empty : (m.run x (n + 1)).world.context c = .empty
  made : c < (m.run x (n + 1)).world.contextCount
  unmade : ∀ k ≤ n, (m.run x k).world.contextCount ≤ c
  unbound : ∀ k ≤ n, ∀ t, ((m.run x k).world.thread t).bound ≠ some c

theorem context_makes (h : Makes t c m) : (m.step x).world.context c = .empty := by
  obtain ⟨-, ha, hb, rfl⟩ := h
  have hempty := (World.bound_of_none hb).2.2 m.world.contextCount
  rw [if_pos rfl] at hempty
  unfold Asks at ha
  split at ha <;> rename_i hm
  · simp only [step, hm]
    exact hempty
  · simp only [step, hm]
    exact hempty
  · cases ha

theorem new_of_makes (hb : ∀ t, (w.thread t).bound = none)
    (ho : ∀ k < n, ((start work w).run x k).Knowing) (h : Makes t c ((start work w).run x n)) :
    New x (start work w) n c := by
  have hunmade : ∀ k ≤ n, ((start work w).run x k).world.contextCount ≤ c := fun k hk =>
    h.2.2.2 ▸ run_contexts_le x work w hk
  refine ⟨?_, ?_, hunmade, fun k hk t hbound => ?_⟩
  · rw [run_succ']
    exact context_makes h
  · rw [run_succ', contextCount_makes h]
    exact Nat.lt_succ_self c
  · have hmade := bound_made hb (fun j hj => ho j (Nat.lt_of_lt_of_le hj hk)) hbound
    exact Nat.not_lt.2 (hunmade k hk) hmade

/-- Whoever asks gets the bound context, or is bound to a new one. -/
theorem asked (hb : ∀ t, (w.thread t).bound = none)
    (ho : ∀ k < n, ((start work w).run x k).Knowing) (ha : ((start work w).run x n).Asks) :
    (∀ c, ((start work w).run x n).world.strand.bound = some c →
      ((start work w).run x n).world.bound = (c, ((start work w).run x n).world)) ∧
    (((start work w).run x n).world.strand.bound = none →
      New x (start work w) n ((start work w).run x n).world.bound.1) :=
  ⟨fun _ h => World.bound_of_some h, fun h =>
    new_of_makes hb ho ⟨rfl, ha, h, (World.bound_of_none h).1.symm⟩⟩

/-- A step changes the binding of the running thread only, and only if it is one that binds. A thread
that is started is unbound, or bound to what its parent is bound to from then on. Who asks and is bound
gets that context and changes nothing; who is not is bound to a new one. So of two threads that get one
context, one was handed it before. -/
theorem bindings_kept_apart (x : Executor) (work : Work) (w : World) (n : Nat) (hw : w.Manned)
    (hb : ∀ t, (w.thread t).bound = none) (ho : ∀ k < n, ((start work w).run x k).Knowing) :
    let m := (start work w).run x n
    let m' := m.step x
    (∀ t < m.world.threadCount, (m'.world.thread t).bound ≠ (m.world.thread t).bound →
      t = m.world.running ∧ m.Rebinds ∧ (m'.world.thread t).bound = m.binding) ∧
    (∀ name body next, m.work = .thread name false body next →
      m'.work = body ∧ m'.world.running = m.world.threadCount ∧ m'.world.strand.bound = none) ∧
    (∀ name body next, m.work = .thread name true body next → ∃ c,
      m'.work = body ∧ m'.world.running = m.world.threadCount ∧ m'.world.strand.bound = some c ∧
      (m'.world.thread m.world.running).bound = some c ∧
      (∀ d, m.world.strand.bound = some d → c = d) ∧
      (m.world.strand.bound = none → New x (start work w) n c)) ∧
    (∀ next, m.work = .act .bound next → ∃ c,
      m'.work = next c ∧ m'.world.running = m.world.running ∧ m'.world.strand.bound = some c ∧
      (∀ d, m.world.strand.bound = some d → c = d ∧ m'.world = m.world) ∧
      (m.world.strand.bound = none → New x (start work w) n c)) ∧
    (∀ j k t u c, t ≠ u → Obtains t c ((start work w).run x j) →
      Obtains u c ((start work w).run x k) →
      (∃ i < j, Hands t c ((start work w).run x i)) ∨
        ∃ i < k, Hands u c ((start work w).run x i)) := by
  intro m m'
  refine ⟨fun t => rebinds_of_ne x, fun name body next => step_plain_thread x, ?_, ?_,
    fun j k t u c => handed_of_obtained hb⟩
  · intro name body next hm
    have ha : m.Asks := by simp only [Asks, hm]
    obtain ⟨hsome, hnone⟩ := asked hb ho ha
    obtain ⟨hwork, hrunning, hchild, hparent⟩ :=
      step_inheriting_thread x hm (crewed_run x work hw n).running
    exact ⟨m.world.bound.1, hwork, hrunning, hchild, hparent,
      fun d hd => congrArg Prod.fst (hsome d hd), hnone⟩
  · intro next hm
    have ha : m.Asks := by simp only [Asks, hm]
    obtain ⟨hsome, hnone⟩ := asked hb ho ha
    obtain ⟨hwork, hworld⟩ := step_bound x hm
    have hstrung := World.Strung.bound m.world
    refine ⟨m.world.bound.1, hwork, ?_, ?_, fun d hd => ?_, hnone⟩
    · exact (congrArg World.running hworld).trans hstrung.running
    · exact (congrArg (·.strand.bound) hworld).trans (congrArg Strand.bound hstrung.strand)
    · have hsame := hsome d hd
      exact ⟨congrArg Prod.fst hsame, hworld.trans (congrArg Prod.snd hsame)⟩

/-- A thread starts another that inherits; that one unbinds its context and asks again. -/
def parted : Work :=
  .act .bound fun _ => .thread "child" true
    (.act .bound fun _ => .act .unbind fun _ => .act .bound fun _ => .done (.ok .null))
    fun _ => .done (.ok .null)

theorem bindings_kept_apart_parted :
    let x := Executor.ofConfig .default
    let m := start parted (.bare .empty)
    (∃ i < 2, Hands 1 1 (m.run x i)) ∧
      ∃ c, ((m.run x 5).world.thread 1).bound = some c ∧ New x m 4 c := by
  intro x m
  obtain ⟨-, -, -, hasked, hshared⟩ := bindings_kept_apart x parted (.bare .empty) 4
    (World.start_manned ..) (fun _ => rfl) (by decide)
  have hchild : Obtains 1 1 (m.run x 2) := ⟨rfl, ⟨_, rfl⟩, rfl⟩
  have hmain : Obtains 0 1 (m.run x 0) := ⟨rfl, ⟨_, rfl⟩, rfl⟩
  constructor
  · rcases hshared 2 0 1 0 1 (by decide) hchild hmain with h | ⟨i, hi, -⟩
    · exact h
    · exact absurd hi (Nat.not_lt_zero i)
  · obtain ⟨c, -, -, hc, -, hnew⟩ := hasked _ rfl
    exact ⟨c, hc, hnew rfl⟩

end Machine
end Guise

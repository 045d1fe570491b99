import Guise.Proofs.Layers

/-!
# Dropping a future

A future that is made and not polled has done nothing. One that is suspended holds the frames of its
calls in progress, all of its own installations, the innermost first; dropping it pops these one by
one, asks nobody and goes on with nothing of its work. One whose work has ended holds no frame any
more. Between its steps nothing reaches a future: only steps that handle its name change what is kept
under that name (`find_futures_of_handles`).
-/

namespace Guise

namespace World
variable (w : World)

theorem questions_tell (n : Notice) : (w.tell n).questions = w.questions := by
  simp [questions, tell, write]

theorem questions_enterSpan (s : Option Span) : (w.enterSpan s).questions = w.questions := by
  cases s <;> rfl

theorem questions_exitSpan (s : Option Span) : (w.exitSpan s).questions = w.questions := by
  cases s <;> rfl

theorem questions_restore (h : Hold) (unwinding : Bool) :
    (w.restore h unwinding).questions = w.questions := by
  have htold : (if unwinding then w.tell .unwinding else w).questions = w.questions := by
    split
    · exact questions_tell w _
    · rfl
  unfold restore
  generalize (if unwinding then w.tell .unwinding else w) = w₁ at htold ⊢
  dsimp only
  split <;> exact (questions_tell _ _).trans htold

theorem questions_leave (mode : Mode) (a : Activation) (unwinding : Bool) :
    (w.leave mode a unwinding).questions = w.questions := by
  cases mode with
  | sync => exact (questions_exitSpan _ _).trans (questions_restore ..)
  | async => exact (questions_restore ..).trans (questions_exitSpan _ _)

theorem questions_cancel (calls : List Activation) : (w.cancel calls).questions = w.questions :=
  cancel_keeps questions questions_enterSpan (fun w a => questions_leave w .async a false) w calls

end World

namespace Machine
variable {x : Executor} {m : Machine} {name : String}

/-! ### What is kept under a name -/

/-- The name of the future that the next step makes, polls, drops or suspends. -/
def handles? (m : Machine) : Option String :=
  match m.work with
  | .future name .. | .poll name _ | .drop name _ => some name
  | .yield _ => (splitPoll m.stack).map fun s => s.2.1
  | _ => none

theorem find_dropFuture {k : String} (h : k ≠ name) :
    (m.dropFuture k).futures.find? name = m.futures.find? name := by
  rw [futures_dropFuture, Table.find?_erase, if_neg h]

theorem find_futures_of_handles (x : Executor) (h : m.handles? ≠ some name) :
    (m.step x).futures.find? name = m.futures.find? name := by
  unfold handles? at h
  unfold step
  split <;> rename_i hm <;> simp only [hm] at h
  · unfold finish; split <;> rfl
  · rfl
  · unfold call; split <;> rfl
  · have hne : ¬ _ = name := fun he => h (congrArg some he)
    simp only [Table.find?_put, if_neg hne, find_dropFuture hne]
  · have hne : ¬ _ = name := fun he => h (congrArg some he)
    unfold poll
    split
    · rfl
    · simp only [Table.find?_erase, if_neg hne]
  · exact find_dropFuture fun he => h (congrArg some he)
  · unfold yield
    split
    · rfl
    · rename_i calls k polled rest hs
      have hne : ¬ k = name := fun he => h (by rw [hs, ← he]; rfl)
      simp only [Table.find?_put, if_neg hne, find_dropFuture hne]
  · unfold thread; split; rfl
  · unfold pause; split <;> rfl
  · unfold resume; split <;> rfl

theorem find_futures_run (x : Executor) (k : Nat) (m : Machine)
    (h : ∀ j < k, (m.run x j).handles? ≠ some name) :
    (m.run x k).futures.find? name = m.futures.find? name := by
  induction k with
  | zero => rfl
  | succ k ih =>
    rw [run_succ', find_futures_of_handles x (h k (Nat.lt_succ_self k))]
    exact ih fun j hj => h j (Nat.lt_succ_of_lt hj)

theorem drop_unpolled {body : Work} {next : Bool → Work} (hm : m.work = .drop name next)
    (hf : m.futures.find? name = some ⟨body, []⟩) :
    m.step x = { m with work := next true, futures := m.futures.erase name } := by
  simp [step, hm, dropFuture, hf, World.cancel, World.enterAll]

theorem drop_absent {next : Bool → Work} (hm : m.work = .drop name next)
    (hf : m.futures.find? name = none) : m.step x = { m with work := next false } := by
  simp [step, hm, dropFuture, hf]

theorem drop_suspended {f : Future} {next : Bool → Work} (hm : m.work = .drop name next)
    (hf : m.futures.find? name = some f) : m.step x = { m with
      work := next true, world := m.world.cancel f.calls, futures := m.futures.erase name } := by
  simp [step, hm, dropFuture, hf]

/-! ### Runs of careful work -/

/-- The next step pushes and pops nothing by hand, and begins no call in a context that is not
made. -/
def Orderly (m : Machine) : Prop :=
  m.work.Next (·.stacked? = none) (·.context < m.world.contextCount)

instance (m : Machine) : Decidable m.Orderly := inferInstanceAs (Decidable (m.work.Next _ _))

theorem Orderly.careful (h : m.Orderly) (d : Nat) : m.Careful d :=
  h.mono (fun _ hop hd => by rw [hop] at hd; cases hd) fun _ hc hd => hd ▸ hc

end Machine

/-- Operations have led to every context, and a context that is not made has no frames. -/
structure World.Sound (w : World) : Prop where
  reachable : ∀ d, (w.context d).Reachable
  absent : ∀ d, w.contextCount ≤ d → (w.context d).frames = []

theorem World.bare_sound {y : Context} (hy : y.Reachable) : (World.bare y).Sound := by
  have hctx : ∀ d, (World.bare y).context d = if 0 = d then y else .empty := fun d => by
    simp only [bare, start, context, Table.find?]
    split <;> rfl
  refine ⟨fun d => ?_, fun d hd => ?_⟩
  · rw [hctx]
    split
    · exact hy
    · exact .new none
  · rw [hctx, if_neg (Nat.ne_of_lt hd)]; rfl

theorem nodup_of_framesOn {hs : List Hold} (h : ∀ d, (framesOn d hs).Nodup) : hs.Nodup := by
  induction hs with
  | nil => exact .nil
  | cons k hs ih =>
    refine List.nodup_cons.2 ⟨fun hk => ?_, ih fun d => ?_⟩
    · have hkd := h k.context
      rw [framesOn_cons, if_pos rfl] at hkd
      exact (List.nodup_cons.1 hkd).1 (mem_framesOn.2 hk)
    · have hd := h d
      rw [framesOn_cons] at hd
      split at hd
      · exact (List.nodup_cons.1 hd).2
      · exact hd

namespace Machine
variable {x : Executor} {m : Machine} {name : String} {work : Work} {w : World} {n : Nat}

theorem suspended_mem_tasks {f : Future} (hf : ((start work w).run x n).futures.find? name = some f) :
    suspended (name, f) ∈ ((start work w).run x n).tasks := by
  have hp := Table.perm_cons_erase (run_futures_nodup x n (start work w) .nil) hf
  refine List.mem_cons_of_mem _ (List.mem_append_left _ (List.mem_append_right _ ?_))
  exact List.mem_map.2 ⟨(name, f), hp.mem_iff.2 (List.mem_cons_self ..), rfl⟩

/-- What a suspended future holds it installed itself, the innermost last. -/
theorem suspended_credited {f : Future} (hf : ((start work w).run x n).futures.find? name = some f) :
    (f.calls.map fun a => (Party.future name, a.hold)).Sublist
      (((start work w).history x n).map Installation.owner).reverse := by
  have h := credited_run x work w n _ (suspended_mem_tasks hf)
  simpa [Task.owned, suspended, Function.comp_def] using h

section Orderly
variable (hw : w.Sound) (ho : ∀ k < n, ((start work w).run x k).Orderly)
include hw ho

theorem orderly_run (d : Nat) :
    Layered d (w.context d).numbers ((start work w).run x n) ∧
      Recorded d (w.context d).numbers ((start work w).history x n) ((start work w).run x n) :=
  layered_run x work n (hw.reachable d).wellNumbered
    (fun hd => by simp [Context.numbers, hw.absent d hd]) fun k hk => (ho k hk).careful d

/-- A party that holds nothing has left no frame behind. -/
theorem frames_gone {p : Party} (hp : ∀ k ∈ ((start work w).run x n).tasks, k.party = p → k.holds = [])
    {i : Installation} (hi : i ∈ (start work w).history x n) (hip : i.party = p) :
    i.hold.frame ∉ (((start work w).run x n).world.context i.hold.context).numbers := by
  obtain ⟨hl, hr⟩ := orderly_run hw ho i.hold.context
  refine gone_of_ended hl hr (credited_run x work w n) hi rfl fun hmem => ?_
  obtain ⟨k, hk, hik⟩ := List.mem_flatMap.1 hmem
  obtain ⟨h, hh, he⟩ := List.mem_map.1 hik
  rw [hp k hk ((congrArg Prod.fst he).trans hip)] at hh
  cases hh

/-- What a suspended future holds is there, once. -/
theorem suspended_present {f : Future} (hf : ((start work w).run x n).futures.find? name = some f) :
    (f.calls.map (·.hold)).Nodup ∧ ∀ a ∈ f.calls,
      a.hold.frame ∈ (((start work w).run x n).world.context a.hold.context).numbers := by
  constructor
  · have hs := (suspended_credited hf).map Prod.snd
    have hall : (((start work w).history x n).map (·.hold)).Nodup := nodup_of_framesOn fun d =>
      (orderly_run hw ho d).2.ascending.imp Nat.ne_of_lt
    rw [List.map_map, List.map_reverse, List.map_map] at hs
    exact (List.pairwise_reverse.2 (hall.imp Ne.symm)).sublist hs
  · intro a ha
    obtain ⟨ns, hns, hp⟩ := (orderly_run hw ho a.hold.context).1.numbers
    have hmem : a.hold ∈ ((start work w).run x n).holds := by
      refine List.mem_map.2 ⟨(.future name, a.hold), ?_, rfl⟩
      refine List.mem_flatMap.2 ⟨_, suspended_mem_tasks hf, ?_⟩
      exact List.mem_map.2 ⟨a.hold, List.mem_map.2 ⟨a, ha, rfl⟩, rfl⟩
    rw [hns]
    exact List.mem_append_left _ (hp.mem_iff.2 (mem_framesOn.2 hmem))

/-- After calls are left, their frames are gone and nothing else is. -/
theorem context_leaveAll (entered calls : List Activation) (d : Nat) :
    ((((start work w).run x n).world.enterAll entered).leaveAll calls).context d =
      { ((start work w).run x n).world.context d with
        frames := (((start work w).run x n).world.context d).frames.filter fun g =>
          ⟨d, g.number⟩ ∉ calls.map (·.hold) } := by
  have hp := (World.Quiet.enterAll ((start work w).run x n).world entered).pops.trans
    (World.leaveAll_pops _ calls)
  rw [hp.context, (orderly_run hw ho d).1.wellNumbered.popAll_eq]
  simp only [List.nil_append, mem_framesOn]

end Orderly

/-- Making a future changes nothing but the futures, and neither does dropping it unpolled. Dropping
it while it is suspended goes on with nothing of its work, asks nobody and takes away the frames of
its calls in progress, one by one, the innermost first, each from its own context; every base and
every other frame stays where it was. When its work ends, in whatever way, its frames are gone
already, and dropping it then changes nothing. -/
theorem dropping_exact (x : Executor) (work : Work) (w : World) (n : Nat) (name : String)
    (hw : w.Sound) (ho : ∀ k < n, ((start work w).run x k).Orderly) :
    let m := (start work w).run x n
    let installed := (start work w).history x n
    (∀ body next, m.work = .future name body next → m.futures.find? name = none →
      m.step x = { m with work := next, futures := m.futures.put name ⟨body, []⟩ } ∧
      ∀ k next', (∀ j < k, ((m.step x).run x j).handles? ≠ some name) →
        ((m.step x).run x k).work = .drop name next' →
        ((m.step x).run x k).step x = { (m.step x).run x k with
          work := next' true, futures := ((m.step x).run x k).futures.erase name }) ∧
    (∀ f next, m.work = .drop name next → m.futures.find? name = some f →
      m.step x = { m with
        work := next true, world := (m.world.enterAll f.calls).leaveAll f.calls,
        futures := m.futures.erase name } ∧
      (m.step x).world.questions = m.world.questions ∧
      (m.step x).world.lookups = m.world.lookups ∧
      (m.step x).world.tokenCount = m.world.tokenCount ∧
      (m.step x).world.contextCount = m.world.contextCount ∧
      (f.calls.map fun a => (Party.future name, a.hold)).Sublist
        (installed.map Installation.owner).reverse ∧
      (f.calls.map (·.hold)).Nodup ∧
      (∀ a ∈ f.calls, a.hold.frame ∈ (m.world.context a.hold.context).numbers) ∧
      (∀ k d, ((m.world.enterAll f.calls).leaveAll (f.calls.take k)).context d =
        { m.world.context d with frames := (m.world.context d).frames.filter fun g =>
          ⟨d, g.number⟩ ∉ (f.calls.take k).map (·.hold) }) ∧
      ((∀ k ∈ (m.step x).tasks, k.party = .future name → k.holds = []) →
        ∀ i ∈ installed, i.party = .future name →
          i.hold.frame ∉ ((m.step x).world.context i.hold.context).numbers)) ∧
    (∀ e next r, m.work = .done e → m.stack = .polling name next :: r →
      m.step x = { m with work := next (.ready e), stack := r } ∧
      ((∀ k ∈ m.others, k.party = .future name → k.holds = []) →
        ∀ i ∈ installed, i.party = .future name →
          i.hold.frame ∉ (m.world.context i.hold.context).numbers) ∧
      (m.futures.find? name = none →
        ∀ k next', (∀ j < k, ((m.step x).run x j).handles? ≠ some name) →
          ((m.step x).run x k).work = .drop name next' →
          ((m.step x).run x k).step x = { (m.step x).run x k with work := next' false })) := by
  intro m installed
  refine ⟨fun body next hm hf => ?_, fun f next hm hf => ?_, fun e next r hm hs => ?_⟩
  · have hstep : m.step x =
        { m with work := next, futures := m.futures.put name ⟨body, []⟩ } := by
      simp [step, hm, dropFuture, hf]
    refine ⟨hstep, fun k next' hk hd => ?_⟩
    have hkept : ((m.step x).run x k).futures.find? name = some ⟨body, []⟩ := by
      rw [find_futures_run x k _ hk, hstep, Table.find?_put, if_pos rfl]
    exact drop_unpolled hd hkept
  · have hstep := drop_suspended (x := x) hm hf
    have hpops := World.cancel_pops m.world f.calls
    obtain ⟨hnodup, hpresent⟩ := suspended_present hw ho hf
    refine ⟨hstep, ?_, ?_, ?_, ?_, suspended_credited hf, hnodup, hpresent,
      fun k d => context_leaveAll hw ho f.calls (f.calls.take k) d, fun hp i hi hip => ?_⟩
    · rw [hstep]; exact World.questions_cancel m.world f.calls
    · rw [hstep]; exact hpops.lookups
    · rw [hstep]; exact hpops.tokenCount
    · rw [hstep]; exact hpops.contextCount
    · -- the drop is one more orderly step, and it installs nothing
      have hnext : (start work w).run x (n + 1) = m.step x := run_succ' x n _
      have ho' : ∀ k < n + 1, ((start work w).run x k).Orderly := fun k hk => by
        rcases Nat.lt_succ_iff_lt_or_eq.1 hk with hk | rfl
        · exact ho k hk
        · show m.work.Next _ _
          rw [hm]
          trivial
      have hi' : i ∈ (start work w).history x (n + 1) := by
        rw [history_succ']
        exact List.mem_append_left _ hi
      have hgone := frames_gone (p := .future name) hw ho' (by rw [hnext]; exact hp) hi' hip
      rwa [hnext] at hgone
  · have hstep : m.step x = { m with work := next (.ready e), stack := r } := by
      simp [step, hm, finish, hs]
    refine ⟨hstep, fun hp i hi hip => frames_gone hw ho (fun k hk hkp => ?_) hi hip,
      fun hf k next' hk hd => drop_absent hd ?_⟩
    · rcases List.mem_cons.1 hk with rfl | hk
      · show (tasksIn m.world.running m.stack).1.holds = []
        rw [hs]; rfl
      · exact hp k hk hkp
    · rw [find_futures_run x k _ hk, hstep]
      exact hf

/-- A future that is dropped inside two calls, under the frame of a call of the thread. -/
def abandoned : Work :=
  .future "task" (.call .async ⟨0, .anonymous⟩
    (.call .async ⟨0, .anonymous⟩ (.yield (.done (.ok .null))) .done) .done) <|
  .poll "task" fun _ => .call .sync ⟨0, .anonymous⟩ (.drop "task" fun _ => .done (.ok .null)) .done

theorem dropping_exact_abandoned :
    let x := Executor.ofConfig .default
    let m := (start abandoned (.bare ((Context.ofToken none).push none).2)).run x 6
    ∃ f, m.futures.find? "task" = some f ∧ f.calls.map (·.hold) = [⟨0, 2⟩, ⟨0, 1⟩] ∧
      (m.step x).world.questions = m.world.questions ∧
      (m.step x).world = (m.world.enterAll f.calls).leaveAll f.calls ∧
      ∀ k, ((m.world.enterAll f.calls).leaveAll (f.calls.take k)).context 0 =
        { m.world.context 0 with frames := (m.world.context 0).frames.filter fun g =>
          ⟨0, g.number⟩ ∉ (f.calls.take k).map (·.hold) } := by
  intro x m
  have hsome : (m.futures.find? "task").isSome := by decide
  have hf := (Option.some_get hsome).symm
  obtain ⟨-, h, -⟩ := dropping_exact x abandoned (.bare ((Context.ofToken none).push none).2) 6 "task"
    (World.bare_sound (.push none (.new none))) (by decide)
  obtain ⟨hstep, hquestions, -, -, -, -, -, -, hctx, -⟩ := h _ _ rfl hf
  exact ⟨_, hf, rfl, hquestions, by rw [hstep], fun k => hctx k 0⟩

end Machine
end Guise

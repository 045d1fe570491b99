import Guise.Proofs.Alike
import Guise.Proofs.Program

/-!
# Suspensions make no difference

The asynchronous counterpart of a program has an asynchronous call for each synchronous one, and may
suspend itself anywhere (`Program.Suspends`). A future of it that is polled until it is ready runs in
step with the program (`Machine.InStep`): both take the same step at once, or the future alone takes
one that shows nothing, to suspend itself or to be polled again. Between any two steps the two worlds
differ in spans only. The induction is on the counterpart (`Program.Suspends.inStep`): a call in
progress stands on the stacks of both machines with the same frame, and while the future is suspended
its calls keep their frames, so both machines leave the call alike.
-/

namespace Guise

/-- What a poller does: it goes on with the ending, or tries again. -/
def Work.onPolled (again otherwise : Work) : Polled → Work
  | .pending => again
  | .ready e => .done e
  | .gone => otherwise

/-- Polls a future at most so many times, until it is ready. -/
def Work.awaiting (name : String) (otherwise : Work) : Nat → Work
  | 0 => otherwise
  | n + 1 => .poll name (.onPolled (awaiting name otherwise n) otherwise)

/-- Asynchronous counterparts of a program: calls are asynchronous, and there are suspensions at any
places. -/
inductive Program.Suspends : Program → Work → Prop
  | done (e : Ending) : Suspends (.done e) (.done e)
  | act (op : Op) {next : op.Answer → Program} {next' : op.Answer → Work} :
      (∀ a, Suspends (next a) (next' a)) → Suspends (.act op next) (.act op next')
  | call (c : Call) {body : Program} {body' : Work} {next : Ending → Program} {next' : Ending → Work} :
      Suspends body body' → (∀ e, Suspends (next e) (next' e)) →
      Suspends (.call c body next) (.call .async c body' next')
  | yield {p : Program} {work : Work} : Suspends p work → Suspends p (.yield work)

def Op.handsOut (w : World) : Op → List Hold
  | .push c _ => [⟨c, (w.context c).next⟩]
  | _ => []

theorem World.Alike.handsOut {w w' : World} (h : w.Alike w') (op : Op) :
    op.handsOut w' = op.handsOut w := by
  cases op with
  | push c t => simp only [Op.handsOut, h.context]
  | _ => rfl

namespace Machine
variable {x : Executor} {s s' s'' a a' a'' : Machine} {i j : Nat}

/-- The frame that the next step hands out, to a call or to whoever pushes it. -/
def handsOut (x : Executor) (m : Machine) : List Hold :=
  match m.work with
  | .act op _ => op.handsOut m.world
  | .call _ c _ _ =>
    match (m.world.enter x c).1 with
    | .ok (hold, _) => [hold]
    | _ => []
  | _ => []

def handedOut (x : Executor) : Nat → Machine → List Hold
  | 0, _ => []
  | n + 1, m => m.handsOut x ++ handedOut x n (m.step x)

/-- After so many steps of each of two machines, work has got to know the same, the same frames were
handed out, and the worlds differ in spans only. -/
structure Abreast (x : Executor) (s a : Machine) (i j : Nat) : Prop where
  world : (s.run x i).world.Alike (a.run x j).world
  events : a.trace x j = s.trace x i
  frames : a.handedOut x j = s.handedOut x i

namespace Abreast

theorem zero (h : s.world.Alike a.world) : Abreast x s a 0 0 := ⟨h, rfl, rfl⟩

theorem both (h : Abreast x (s.step x) (a.step x) i j) (ho : a.observed x = s.observed x)
    (hf : a.handsOut x = s.handsOut x) : Abreast x s a (i + 1) (j + 1) := by
  refine ⟨?_, ?_, ?_⟩
  · rw [run_succ, run_succ]
    exact h.world
  · rw [trace, trace, ho, h.events]
  · rw [handedOut, handedOut, hf, h.frames]

theorem alone (h : Abreast x s (a.step x) i j) (ho : a.observed x = []) (hf : a.handsOut x = []) :
    Abreast x s a i (j + 1) := by
  refine ⟨?_, ?_, ?_⟩
  · rw [run_succ]
    exact h.world
  · rw [trace, ho, h.events, List.nil_append]
  · rw [handedOut, hf, h.frames, List.nil_append]

end Abreast

/-- Two machines get to two others in step: both take the same step, or the second one takes one alone
that shows nothing. -/
inductive InStep (x : Executor) : Machine → Machine → Machine → Machine → Prop
  | refl {s a : Machine} : s.world.Alike a.world → InStep x s a s a
  | both {s a s' a' : Machine} : s.world.Alike a.world → a.observed x = s.observed x →
      a.handsOut x = s.handsOut x → InStep x (s.step x) (a.step x) s' a' → InStep x s a s' a'
  | alone {s a s' a' : Machine} : s.world.Alike a.world → a.observed x = [] → a.handsOut x = [] →
      InStep x s (a.step x) s' a' → InStep x s a s' a'

namespace InStep

theorem trans (h : InStep x s a s' a') (h' : InStep x s' a' s'' a'') : InStep x s a s'' a'' := by
  induction h with
  | refl _ => exact h'
  | both hw ho hf _ ih => exact .both hw ho hf (ih h')
  | alone hw ho hf _ ih => exact .alone hw ho hf (ih h')

/-- Machines in step are abreast in the end, and at every point on the way. -/
theorem runs (h : InStep x s a s' a') : ∃ i j, s.run x i = s' ∧ a.run x j = a' ∧
    Abreast x s a i j ∧ ∀ j' ≤ j, ∃ i' ≤ i, Abreast x s a i' j' := by
  induction h with
  | refl hw =>
    refine ⟨0, 0, rfl, rfl, .zero hw, fun j' hj => ?_⟩
    rw [Nat.le_zero.1 hj]
    exact ⟨0, Nat.le_refl 0, .zero hw⟩
  | both hw ho hf _ ih =>
    obtain ⟨i, j, hs, ha, hend, hway⟩ := ih
    refine ⟨i + 1, j + 1, ?_, ?_, hend.both ho hf, fun j' hj => ?_⟩
    · rw [run_succ, hs]
    · rw [run_succ, ha]
    · cases j' with
      | zero => exact ⟨0, Nat.zero_le _, .zero hw⟩
      | succ j' =>
        obtain ⟨i', hi, h⟩ := hway j' (Nat.le_of_succ_le_succ hj)
        exact ⟨i' + 1, Nat.succ_le_succ hi, h.both ho hf⟩
  | alone hw ho hf _ ih =>
    obtain ⟨i, j, hs, ha, hend, hway⟩ := ih
    refine ⟨i, j + 1, hs, ?_, hend.alone ho hf, fun j' hj => ?_⟩
    · rw [run_succ, ha]
    · cases j' with
      | zero => exact ⟨0, Nat.zero_le _, .zero hw⟩
      | succ j' =>
        obtain ⟨i', hi, h⟩ := hway j' (Nat.le_of_succ_le_succ hj)
        exact ⟨i', hi, h.alone ho hf⟩

end InStep

/-! ### The future and the poller -/

theorem splitPoll_running (calls : List Activation) (name : String) (next : Polled → Work)
    (r : List Level) :
    splitPoll (calls.map (.running .async) ++ .polling name next :: r) = some (calls, name, next, r) := by
  induction calls with
  | nil => rfl
  | cons a calls ih => simp [splitPoll, ih]

section Polling
variable (name : String) (otherwise : Work)

/-- A machine in a poll of its only future, whose poller will poll it at most `n` times more. -/
def inPoll (n : Nat) (work : Work) (calls : List Activation) (w : World) : Machine where
  work := work
  stack := calls.map (.running .async) ++
    [.polling name (.onPolled (.awaiting name otherwise n) otherwise)]
  world := w
  futures := []
  paused := []

/-- The machine between two polls of the future. -/
def betweenPolls (n : Nat) (work : Work) (calls : List Activation) (w : World) : Machine :=
  ⟨.awaiting name otherwise n, [], w, [(name, ⟨work, calls⟩)], []⟩

variable {name otherwise} {n : Nat} {work : Work} {calls : List Activation} {w : World}

theorem step_yield (x : Executor) : (inPoll name otherwise n (.yield work) calls w).step x =
    betweenPolls name otherwise n work calls (w.exitAll calls) := by
  simp [step, inPoll, betweenPolls, yield, splitPoll_running, dropFuture, Table.put, Table.erase,
    Work.onPolled]

theorem step_betweenPolls (x : Executor) :
    (betweenPolls name otherwise (n + 1) work calls w).step x =
      inPoll name otherwise n work calls (w.enterAll calls) := by
  simp [step, inPoll, betweenPolls, Work.awaiting, poll, Table.find?, Table.erase]

/-! ### One lemma for each thing that a program does -/

variable {w' v v' : World} {stack : List Level}

theorem InStep.act {op : Op} {next next' : op.Answer → Work} (hw : w.Alike w')
    (h : InStep x ⟨next (op.perform x w).1, stack, (op.perform x w).2, [], []⟩
      (inPoll name otherwise n (next' (op.perform x w).1) calls (op.perform x w').2) s' a') :
    InStep x ⟨.act op next, stack, w, [], []⟩
      (inPoll name otherwise n (.act op next') calls w') s' a' := by
  have hanswer := (hw.perform x op).1
  refine .both hw ?_ (hw.handsOut op) ?_
  · exact congrArg (fun a => [Event.answered op a]) hanswer
  · have hstep : (inPoll name otherwise n (.act op next') calls w').step x =
        inPoll name otherwise n (next' (op.perform x w).1) calls (op.perform x w').2 := by
      rw [← hanswer]
      rfl
    rw [hstep]
    exact h

section Call
variable {c : Call} {body body' : Work} {next next' : Ending → Work} {hold : Hold}
  {span span' : Option Span}

theorem InStep.call (hw : w.Alike w') (h : w.enter x c = (.ok (hold, span), v))
    (h' : w'.enter x c = (.ok (hold, span'), v'))
    (hbody : InStep x ⟨body, .running .sync ⟨hold, span, next⟩ :: stack, v, [], []⟩
      (inPoll name otherwise n body' (⟨hold, span', next'⟩ :: calls) v') s' a') :
    InStep x ⟨.call .sync c body next, stack, w, [], []⟩
      (inPoll name otherwise n (.call .async c body' next') calls w') s' a' := by
  have hs : (⟨.call .sync c body next, stack, w, [], []⟩ : Machine).work = .call .sync c body next := rfl
  have ha : (inPoll name otherwise n (.call .async c body' next') calls w').work =
      .call .async c body' next' := rfl
  refine .both hw ?_ ?_ ?_
  · rw [observed_call_ok hs h, observed_call_ok ha h']
  · simp only [handsOut, inPoll, h, h']
  · rw [step_call_ok hs h, step_call_ok ha h']
    exact hbody

theorem InStep.call_failed {o : Outcome ResolutionError (Hold × Option Span)} {e : Ending}
    (hw : w.Alike w') (h : w.enter x c = (o, v)) (h' : w'.enter x c = (o, v'))
    (he : o.failure? = some e)
    (hnext : InStep x ⟨next e, stack, v, [], []⟩
      (inPoll name otherwise n (next' e) calls v') s' a') :
    InStep x ⟨.call .sync c body next, stack, w, [], []⟩
      (inPoll name otherwise n (.call .async c body' next') calls w') s' a' := by
  have hs : (⟨.call .sync c body next, stack, w, [], []⟩ : Machine).work = .call .sync c body next := rfl
  have ha : (inPoll name otherwise n (.call .async c body' next') calls w').work =
      .call .async c body' next' := rfl
  refine .both hw ?_ ?_ ?_
  · rw [observed_call_failed hs h he, observed_call_failed ha h' he]
  · simp only [handsOut, inPoll, h, h']
  · rw [step_call_failed hs h he, step_call_failed ha h' he]
    exact hnext

theorem InStep.leave {e : Ending} (hw : w.Alike w')
    (h : InStep x ⟨next e, stack, w.leave .sync ⟨hold, span, next⟩ e.isPanic, [], []⟩
      (inPoll name otherwise n (next' e) calls
        (w'.leave .async ⟨hold, span', next'⟩ e.isPanic)) s' a') :
    InStep x ⟨.done e, .running .sync ⟨hold, span, next⟩ :: stack, w, [], []⟩
      (inPoll name otherwise n (.done e) (⟨hold, span', next'⟩ :: calls) w') s' a' :=
  .both hw rfl rfl h

end Call

theorem InStep.yield (hw : s.world.Alike w)
    (h : InStep x s (inPoll name otherwise n work calls ((w.exitAll calls).enterAll calls)) s' a') :
    InStep x s (inPoll name otherwise (n + 1) (.yield work) calls w) s' a' := by
  have hexit : s.world.Alike (w.exitAll calls) := hw.trans (.exitAll w calls)
  -- the other machine waits for two steps: one to suspend the future, and one to poll it again
  refine .alone hw rfl rfl ?_
  rw [step_yield]
  refine .alone hexit rfl rfl ?_
  rw [step_betweenPolls]
  exact h

end Polling
end Machine

/-- A future of a counterpart that is polled often enough gets to the ending of the program, in step
with it, whatever calls are in progress around the two. How often that is depends on the program and
the world alone, so it is found before the poller is chosen. -/
theorem Program.Suspends.inStep (x : Executor) (name : String) (otherwise : Work) {p : Program}
    {work : Work} (h : p.Suspends work) (stack : List Level) (calls : List Activation) {w w' : World}
    (hw : w.Alike w') :
    ∃ polls e w₁ w₁', w₁.Alike w₁' ∧ ∀ n,
      Machine.InStep x ⟨p.work, stack, w, [], []⟩ (.inPoll name otherwise (n + polls) work calls w')
        ⟨.done e, stack, w₁, [], []⟩ (.inPoll name otherwise n (.done e) calls w₁') := by
  induction h generalizing stack calls w w' with
  | done e => exact ⟨0, e, w, w', hw, fun n => .refl hw⟩
  | act op _ ih =>
    obtain ⟨polls, e, w₁, w₁', hw₁, hend⟩ := ih (op.perform x w).1 stack calls (hw.perform x op).2
    exact ⟨polls, e, w₁, w₁', hw₁, fun n => .act hw (hend n)⟩
  | @call c body body' next next' _ _ ihb ihn =>
    rcases hw.enter x c with ⟨hold, span, span', v, v', h, h', hv⟩ | ⟨o, e, v, v', h, h', he, hv⟩
    · -- the body comes first, so the polls that it needs are counted on top of those for the rest
      let a : Activation := ⟨hold, span, fun e => (next e).work⟩
      let a' : Activation := ⟨hold, span', next'⟩
      obtain ⟨pollsb, e, v₁, v₁', hv₁, hbody⟩ := ihb (.running .sync a :: stack) (a' :: calls) hv
      have hleave := hv₁.leave hold span span' a.next next' e.isPanic
      obtain ⟨polls, f, w₁, w₁', hw₁, hrest⟩ := ihn e stack calls hleave
      refine ⟨polls + pollsb, f, w₁, w₁', hw₁, fun n => .call hw h h' ?_⟩
      rw [← Nat.add_assoc]
      exact (hbody (n + polls)).trans (.leave hv₁ (hrest n))
    · obtain ⟨polls, f, w₁, w₁', hw₁, hrest⟩ := ihn e stack calls hv
      exact ⟨polls, f, w₁, w₁', hw₁, fun n => .call_failed hw h h' he (hrest n)⟩
  | yield _ ih =>
    have hw' := (hw.trans (.exitAll w' calls)).trans (.enterAll (w'.exitAll calls) calls)
    obtain ⟨polls, e, w₁, w₁', hw₁, hend⟩ := ih stack calls hw'
    exact ⟨polls + 1, e, w₁, w₁', hw₁, fun n => .yield hw (hend n)⟩

namespace Machine

theorem InStep.whole (x : Executor) (w : World) {p : Program} {work : Work} (h : p.Suspends work)
    (name : String) (otherwise : Work) :
    ∃ polls e w₁ w₁', ∀ n, polls ≤ n →
      InStep x (start p.work w) (start (.future name work (.awaiting name otherwise n)) w)
        ⟨.done e, [], w₁, [], []⟩ ⟨.done e, [], w₁', [], []⟩ := by
  obtain ⟨polls, e, w₁, w₁', hw₁, hend⟩ := h.inStep x name otherwise [] [] (.refl w)
  refine ⟨polls + 1, e, w₁, w₁', fun n hn => ?_⟩
  obtain ⟨k, rfl⟩ := Nat.exists_eq_add_of_le' hn
  -- the future is made, and polled for the first time
  refine .alone (.refl w) rfl rfl ?_
  have hmade : (start (.future name work (.awaiting name otherwise (k + (polls + 1)))) w).step x =
      betweenPolls name otherwise (k + polls + 1) work [] w := rfl
  rw [hmade]
  refine .alone (.refl w) rfl rfl ?_
  rw [step_betweenPolls]
  exact (hend k).trans (.alone hw₁ rfl rfl (.refl hw₁))

/-- A program and its asynchronous counterpart, polled until it is ready, come to the same ending.
All operations and calls in them have been answered alike, the same frames were handed out in the same
order, collaborators were asked the same questions, and every context is the same after them. At every
point on the way of the future, also while it is suspended, the program has a point at which it had
come as far and the worlds differed in spans only. -/
theorem suspensions_unobserved (x : Executor) (w : World) (p : Program) (body : Work)
    (h : p.Suspends body) (name : String) (otherwise : Work) :
    ∃ polls, ∀ n, polls ≤ n →
      let s := start p.work w
      let a := start (.future name body (.awaiting name otherwise n)) w
      ∃ i j e, (s.run x i).ending? = some e ∧ (a.run x j).ending? = some e ∧
        a.trace x j = s.trace x i ∧ a.handedOut x j = s.handedOut x i ∧
        (a.run x j).world.questions = (s.run x i).world.questions ∧
        (∀ c, (a.run x j).world.context c = (s.run x i).world.context c) ∧
        ∀ j' ≤ j, ∃ i' ≤ i, Abreast x s a i' j' := by
  obtain ⟨polls, e, w₁, w₁', hwhole⟩ := InStep.whole x w h name otherwise
  refine ⟨polls, fun n hn => ?_⟩
  obtain ⟨i, j, hs, ha, hend, hway⟩ := (hwhole n hn).runs
  refine ⟨i, j, e, ?_, ?_, hend.events, hend.frames, hend.world.questions, hend.world.context, hway⟩
  · rw [hs]
    rfl
  · rw [ha]
    rfl

/-- A user call that panics inside an anonymous one. -/
def panicsInUser : Program :=
  .call ⟨0, .anonymous⟩ (.act (.look 0 .principal) fun _ =>
    .call ⟨0, .user "suzy"⟩ (.done (.panic "inside")) .done) .done

/-- The same, suspended before and inside either call. -/
def panicsInUserLater : Work :=
  .yield <| .call .async ⟨0, .anonymous⟩ (.yield <| .act (.look 0 .principal) fun _ => .yield <|
    .call .async ⟨0, .user "suzy"⟩ (.yield <| .yield <| .done (.panic "inside")) .done) .done

theorem suspensions_unobserved_panicsInUser :
    let x := Executor.ofConfig .default
    let s := start panicsInUser.work (.bare .empty)
    panicsInUser.Suspends panicsInUserLater ∧ ∃ n i j e,
      let a := start (.future "task" panicsInUserLater (.awaiting "task" (.done (.ok .null)) n))
        (.bare .empty)
      (s.run x i).ending? = some e ∧ (a.run x j).ending? = some e ∧ a.trace x j = s.trace x i ∧
        a.handedOut x j = s.handedOut x i ∧
        (a.run x j).world.context 0 = (s.run x i).world.context 0 := by
  intro x s
  have hcall : Program.Suspends (.call ⟨0, .user "suzy"⟩ (.done (.panic "inside")) .done)
      (.call .async ⟨0, .user "suzy"⟩ (.yield <| .yield <| .done (.panic "inside")) .done) :=
    .call _ (.yield (.yield (.done _))) .done
  have h : panicsInUser.Suspends panicsInUserLater :=
    .yield (.call _ (.yield (.act _ fun _ => .yield hcall)) .done)
  obtain ⟨polls, hpolls⟩ := suspensions_unobserved x (.bare .empty) _ _ h "task" (.done (.ok .null))
  obtain ⟨i, j, e, hs, ha, hevents, hframes, -, hcontext, -⟩ := hpolls polls (Nat.le_refl _)
  exact ⟨h, polls, i, j, e, hs, ha, hevents, hframes, hcontext 0⟩

end Machine
end Guise

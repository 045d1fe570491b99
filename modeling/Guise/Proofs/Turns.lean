import Guise.Proofs.Parties
import Guise.Proofs.Program

/-!
# What one step does to tasks and frames

`Machine.step_turn` says once what a step can do, and every invariant of a run is derived from it: it
performs an operation, or a call of the running task installs a frame, or a thread begins, or frames
are released. A release pops each of its frames from the context of that frame and does nothing else
to contexts; it may be of no frame, since polling, suspending, pausing and resuming only move tasks
from one place of the machine to another.
-/

namespace Guise

namespace World

/-- These frames are popped, each from its own context, and nothing else is done to contexts. -/
structure Pops (w : World) (hs : List Hold) (w' : World) : Prop where
  context : ∀ d, w'.context d = (w.context d).popAll (framesOn d hs)
  contextCount : w'.contextCount = w.contextCount
  tokenCount : w'.tokenCount = w.tokenCount
  lookups : w'.lookups = w.lookups

variable {w w₁ w₂ : World} {hs hs' : List Hold}

theorem Quiet.pops (h : Quiet w w₁) : w.Pops [] w₁ :=
  ⟨h.context, h.contextCount, h.tokenCount, h.lookups⟩

theorem Pops.trans (h : w.Pops hs w₁) (h' : w₁.Pops hs' w₂) : w.Pops (hs ++ hs') w₂ := by
  refine ⟨fun d => ?_, h'.contextCount.trans h.contextCount, h'.tokenCount.trans h.tokenCount,
    h'.lookups.trans h.lookups⟩
  rw [h'.context, h.context, framesOn_append, Context.popAll_append]

theorem leave_pops (w : World) (mode : Mode) (a : Activation) (unwinding : Bool) :
    w.Pops [a.hold] (w.leave mode a unwinding) := by
  have hq := leave_quiet w mode a unwinding
  refine ⟨fun d => ?_, hq.contextCount, hq.tokenCount, hq.lookups⟩
  rw [hq.context, context_popped, framesOn_cons]
  split <;> rfl

/-- Leaves suspended calls, the innermost first. -/
def leaveAll (w : World) (calls : List Activation) : World :=
  calls.foldl (fun w a => w.leave .async a false) w

theorem leaveAll_pops (w : World) (calls : List Activation) :
    w.Pops (calls.map (·.hold)) (w.leaveAll calls) := by
  induction calls generalizing w with
  | nil => exact (Quiet.refl w).pops
  | cons a calls ih => exact (leave_pops w .async a false).trans (ih _)

theorem cancel_pops (w : World) (calls : List Activation) :
    w.Pops (calls.map (·.hold)) (w.cancel calls) :=
  (Quiet.enterAll w calls).pops.trans (leaveAll_pops _ calls)

/-- What entering a span and leaving a call keep, dropping calls keeps. -/
theorem cancel_keeps {α : Type} (f : World → α) (he : ∀ w s, f (enterSpan w s) = f w)
    (hl : ∀ w a, f (leave w .async a false) = f w) (w : World) (calls : List Activation) :
    f (w.cancel calls) = f w := by
  have hleave : ∀ w : World, f (w.leaveAll calls) = f w := by
    induction calls with
    | nil => exact fun _ => rfl
    | cons a calls ih => exact fun w => (ih _).trans (hl w a)
  have henter : f (w.enterAll calls) = f w := by
    clear hleave
    induction calls with
    | nil => rfl
    | cons a calls ih => exact (he _ a.span).trans ih
  exact (hleave _).trans henter

theorem running_cancel (w : World) (calls : List Activation) :
    (w.cancel calls).running = w.running :=
  cancel_keeps (·.running) (fun w s => (Quiet.enterSpan w s).running)
    (fun w a => (leave_grows w .async a false).running) w calls

end World

/-- A call that has begun: its party, the frame it was given, and the token that then showed. -/
structure Installation where
  party : Party
  hold : Hold
  token : Token

/-- The frame of an installation, with its party. -/
def Installation.owner (i : Installation) : Party × Hold := (i.party, i.hold)

namespace Machine

/-- The installation that the next step makes, if it begins a call. -/
def installs (x : Executor) (m : Machine) : Option Installation :=
  match m.work with
  | .call _ c _ _ =>
    match m.world.enter x c with
    | (.ok (hold, _), w) =>
      (w.context c.context).visible.map fun t => ⟨m.current.party, hold, t⟩
    | _ => none
  | _ => none

/-- Frames are released: they are popped, the tasks that had them have them no more, and every other
task is as it was. -/
structure Released (m m' : Machine) (gone : List (Party × Hold)) : Prop where
  owned : m.owned.Perm (gone ++ m'.owned)
  suffix : ∀ k ∈ m'.tasks, k.holds = [] ∨ ∃ j ∈ m.tasks, k.party = j.party ∧ k.holds <:+ j.holds
  world : m.world.Pops (gone.map (·.2)) m'.world

/-- A call of the running task begins: a new token stands on a new frame of its context. -/
structure Installed (x : Executor) (m m' : Machine) (i : Installation) : Prop where
  observed : m.installs x = some i
  call : ∃ mode c body next, m.work = .call mode c body next ∧ c.context = i.hold.context
  party : i.party = m.current.party
  frame : i.hold.frame = (m.world.context i.hold.context).next
  serial : i.token.serial = m.world.tokenCount
  current : m'.current = m.current.enter i.hold
  others : m'.others = m.others
  context : ∀ d, m'.world.context d = if i.hold.context = d then
    ((m.world.context d).push (some i.token)).2 else m.world.context d
  contextCount : m'.world.contextCount = m.world.contextCount
  tokenCount : m'.world.tokenCount = m.world.tokenCount + 1

/-- A thread begins, perhaps in a context made for it. -/
structure Begun (m m' : Machine) (t : Nat) : Prop where
  tasks : m'.tasks = ⟨.thread t, []⟩ :: m.tasks
  context : ∀ d, m'.world.context d = m.world.context d ∨
    m.world.contextCount = d ∧ ∃ u, m'.world.context d = .ofToken u
  contextCount : m.world.contextCount ≤ m'.world.contextCount
  tokenCount : m'.world.tokenCount = m.world.tokenCount

/-- What a step does to tasks and frames. -/
inductive Turn (x : Executor) (m m' : Machine) : Prop
  | operated (op : Op) (next : op.Answer → Work) : m.work = .act op next → m'.tasks = m.tasks →
      m'.world = (op.perform x m.world).2 → Turn x m m'
  | installed (i : Installation) : Installed x m m' i → Turn x m m'
  | begun (t : Nat) : m.installs x = none → Begun m m' t → Turn x m m'
  | released (gone : List (Party × Hold)) : m.installs x = none → Released m m' gone → Turn x m m'

variable {x : Executor} {m m' : Machine} {gone : List (Party × Hold)}

/-- A release, from the tasks that it replaces and those that take their place. -/
theorem Released.of_tasks (before after : List Task) {rest : List Task}
    (h : m.tasks.Perm (before ++ rest)) (h' : m'.tasks.Perm (after ++ rest))
    (ho : (before.flatMap Task.owned).Perm (gone ++ after.flatMap Task.owned))
    (hs : ∀ k ∈ after, k.holds = [] ∨ ∃ j ∈ before, k.party = j.party ∧ k.holds <:+ j.holds)
    (hw : m.world.Pops (gone.map (·.2)) m'.world) : Released m m' gone := by
  refine ⟨?_, fun k hk => ?_, hw⟩
  · have hm := h.flatMap_right Task.owned
    have hm' := h'.flatMap_right Task.owned
    rw [List.flatMap_append] at hm hm'
    exact hm.trans ((ho.append_right _).trans
      ((List.append_assoc ..).symm ▸ (hm'.symm.append_left gone)))
  · rcases List.mem_append.1 (h'.mem_iff.1 hk) with hk | hk
    · refine (hs k hk).imp_right fun ⟨j, hj, hp⟩ => ⟨j, ?_, hp⟩
      exact h.mem_iff.2 (List.mem_append_left _ hj)
    · exact .inr ⟨k, h.mem_iff.2 (List.mem_append_right _ hk), rfl, List.suffix_rfl⟩

theorem Released.of_perm (h : m.tasks.Perm m'.tasks) (hw : m.world.Pops [] m'.world) :
    Released m m' [] :=
  .of_tasks [] [] h .rfl .nil (by simp) hw

/-! ### Futures -/

/-- Among the tasks, a suspended future is one more. -/
theorem tasks_perm_futures (m : Machine) {F : Table String Future} {k : Task}
    (h : (m.futures.map suspended).Perm (k :: F.map suspended)) :
    m.tasks.Perm (k :: { m with futures := F }.tasks) := by
  have hl := (h.append_left (tasksIn m.world.running m.stack).2).append_right
    (m.paused.flatMap Paused.tasks)
  refine (hl.cons m.current).trans ?_
  simp only [tasks, others, current, List.append_assoc, List.cons_append]
  exact (List.perm_middle : (m.current :: _ ++ k :: _).Perm _)

/-- The task that goes when the future of a name is dropped. -/
def dropped (m : Machine) (name : String) : List Task :=
  ((m.futures.find? name).map fun f => suspended (name, f)).toList

theorem futures_dropFuture (m : Machine) (name : String) :
    (m.dropFuture name).futures = m.futures.erase name := by
  unfold dropFuture
  split
  · rfl
  · rename_i h; exact (Table.erase_eq_self h).symm

theorem stack_dropFuture (m : Machine) (name : String) : (m.dropFuture name).stack = m.stack := by
  unfold dropFuture; split <;> rfl

theorem tasks_dropFuture (hk : (m.futures.map Prod.fst).Nodup) (name : String) :
    m.tasks.Perm (m.dropped name ++ (m.dropFuture name).tasks) := by
  unfold dropped dropFuture
  split
  · rename_i f hf
    have h := tasks_perm_futures m ((Table.perm_cons_erase hk hf).map suspended)
    simpa [hf, tasks, others, current, World.running_cancel] using h
  · rename_i hf; simp [hf]

theorem pops_dropFuture (m : Machine) (name : String) :
    m.world.Pops (((m.dropped name).flatMap Task.owned).map (·.2)) (m.dropFuture name).world := by
  unfold dropped dropFuture
  split
  · rename_i f hf
    simpa [hf, Task.owned, suspended, Function.comp_def] using World.cancel_pops m.world f.calls
  · rename_i hf
    simpa [hf] using (World.Quiet.refl m.world).pops

/-- A future put in place of one that is dropped is one more task. -/
theorem tasks_put (m : Machine) (work : Work) (stack : List Level) (name : String) (f : Future) :
    { m.dropFuture name with
      work := work, stack := stack, futures := (m.dropFuture name).futures.put name f }.tasks.Perm
      (suspended (name, f) :: { m.dropFuture name with stack := stack }.tasks) := by
  refine tasks_perm_futures _ (F := (m.dropFuture name).futures) ?_
  have hnone : (m.dropFuture name).futures.find? name = none := by
    rw [futures_dropFuture, Table.find?_erase, if_pos rfl]
  simp [Table.put, Table.erase_eq_self hnone]

/-! ### One lemma for each form of control -/

theorem finish_released (m : Machine) (e : Ending) : ∃ gone, Released m (m.finish e) gone := by
  obtain ⟨work, stack, w, futures, paused⟩ := m
  rcases stack with _ | ⟨mode, a⟩ | ⟨name, next⟩ | ⟨name, waiter, next⟩
  · exact ⟨[], .of_perm .rfl (World.Quiet.refl w).pops⟩
  · -- the call's own frame goes, and its party has one call less
    rename_i r
    have hrun : (w.leave mode a e.isPanic).running = w.running :=
      (World.leave_grows w mode a e.isPanic).running
    refine ⟨[((tasksIn w.running r).1.party, a.hold)], .of_tasks
      [(tasksIn w.running r).1.enter a.hold] [(tasksIn w.running r).1] .rfl ?_ ?_ ?_ ?_⟩
    · simp only [finish, tasks, others, current, hrun]; rfl
    · simp [Task.owned, Task.enter]
    · simp [Task.enter]
    · exact World.leave_pops w mode a e.isPanic
  · exact ⟨[], .of_tasks [⟨.future name, []⟩] [] .rfl .rfl .nil (by simp) (World.Quiet.refl w).pops⟩
  · exact ⟨[], .of_tasks [⟨.thread w.running, []⟩] [] .rfl .rfl .nil (by simp)
      ⟨fun _ => rfl, rfl, rfl, rfl⟩⟩

theorem poll_released (hk : (m.futures.map Prod.fst).Nodup) (name : String)
    (next : Polled → Work) : Released m (m.poll name next) [] := by
  unfold poll
  split
  · exact .of_perm .rfl (World.Quiet.refl _).pops
  · rename_i f hf
    refine .of_perm ?_ (World.Quiet.enterAll _ _).pops
    have h := tasks_perm_futures m ((Table.perm_cons_erase hk hf).map suspended)
    have hrun := (World.Quiet.enterAll m.world f.calls).running
    simpa [tasks, others, current, hrun, tasksIn_polling, suspended] using h

theorem future_released (hk : (m.futures.map Prod.fst).Nodup) (name : String) (body next : Work) :
    ∃ gone, Released m { m.dropFuture name with
      work := next, futures := (m.dropFuture name).futures.put name ⟨body, []⟩ } gone :=
  ⟨_, .of_tasks (m.dropped name) [⟨.future name, []⟩] (tasks_dropFuture hk name) (tasks_put ..)
    (by simp [Task.owned]) (by simp) (pops_dropFuture m name)⟩

theorem drop_released (hk : (m.futures.map Prod.fst).Nodup) (name : String) (next : Work) :
    ∃ gone, Released m { m.dropFuture name with work := next } gone :=
  ⟨_, .of_tasks (m.dropped name) [] (tasks_dropFuture hk name) .rfl (by simp) (by simp)
    (pops_dropFuture m name)⟩

theorem yield_released (hk : (m.futures.map Prod.fst).Nodup) (next : Work) :
    ∃ gone, Released m (m.yield next) gone := by
  unfold yield
  split
  · exact ⟨[], .of_perm .rfl (World.Quiet.refl _).pops⟩
  · rename_i calls name polled rest hs
    have hq := World.Quiet.exitAll m.world calls
    -- `m₁` has left the spans of the future, and `m₂` has dropped what else had its name
    let m₁ : Machine := { m with world := m.world.exitAll calls }
    let m₂ := m₁.dropFuture name
    have h₁ : m₁.tasks = m.tasks := by simp [m₁, tasks, others, current, hq.running]
    have h₂ : suspended (name, ⟨next, calls⟩) :: { m₂ with stack := rest }.tasks = m₂.tasks := by
      have hstack : m₂.stack = calls.map (.running .async) ++ .polling name polled :: rest :=
        (stack_dropFuture m₁ name).trans (splitPoll_eq hs)
      simp [tasks, others, current, hstack, tasksIn_polling, suspended]
    refine ⟨(m₁.dropped name).flatMap Task.owned, .of_tasks (m₁.dropped name) [] ?_
      (h₂ ▸ tasks_put m₁ _ rest name ⟨next, calls⟩) (by simp) (by simp) ?_⟩
    · exact h₁ ▸ tasks_dropFuture (m := m₁) hk name
    · exact hq.pops.trans (pops_dropFuture m₁ name)

theorem pause_released (m : Machine) (next : Bool → Work) : Released m (m.pause next) [] := by
  unfold pause
  split
  · exact .of_perm .rfl (World.Quiet.refl _).pops
  · rename_i levels name waiter waited rest hs
    refine .of_perm ?_ ⟨fun _ => rfl, rfl, rfl, rfl⟩
    have hunnamed : (m.paused.map (Paused.unnamed name)).flatMap Paused.tasks =
        m.paused.flatMap Paused.tasks := by
      rw [List.flatMap_map]
      exact congrArg (List.flatMap · _) (funext fun p => by unfold Paused.unnamed; split <;> rfl)
    let upper := (tasksIn m.world.running levels).1 :: (tasksIn m.world.running levels).2
    let lower := (tasksIn waiter rest).1 :: (tasksIn waiter rest).2 ++ m.futures.map suspended
    have hp : Paused.tasks ⟨some name, m.world.running, next true, levels⟩ = upper := rfl
    have h : (upper ++ lower).Perm (lower ++ upper) := List.perm_append_comm
    simpa [tasks, others, current, splitThread_eq hs, tasksIn_waiting, hunnamed, hp, upper, lower,
      World.switchTo] using h.append_right (m.paused.flatMap Paused.tasks)

theorem perm_cons_eraseP {α : Type} {p : α → Bool} {l : List α} {a : α} (h : l.find? p = some a) :
    l.Perm (a :: l.eraseP p) := by
  obtain ⟨ha, as, bs, rfl, hnot⟩ := List.find?_eq_some_iff_append.1 h
  rw [List.eraseP_append_right _ (by simpa using hnot), List.eraseP_cons, ha]
  exact List.perm_middle

theorem resume_released (m : Machine) (name : String) (next : Waited → Work) :
    Released m (m.resume name next) [] := by
  unfold resume
  split
  · exact .of_perm .rfl (World.Quiet.refl _).pops
  · rename_i p hp
    refine .of_perm ?_ ⟨fun _ => rfl, rfl, rfl, rfl⟩
    let lower := (tasksIn m.world.running m.stack).1 :: (tasksIn m.world.running m.stack).2 ++
      m.futures.map suspended
    let paused := (m.paused.eraseP (·.name == some name)).flatMap Paused.tasks
    have h : (lower ++ m.paused.flatMap Paused.tasks).Perm (lower ++ (p.tasks ++ paused)) :=
      ((perm_cons_eraseP hp).flatMap_right Paused.tasks).append_left lower
    have h' : (lower ++ (p.tasks ++ paused)).Perm (p.tasks ++ (lower ++ paused)) :=
      List.perm_append_comm_assoc ..
    have hp : p.tasks = (tasksIn p.thread p.levels).1 :: (tasksIn p.thread p.levels).2 := rfl
    rw [hp] at h'
    simpa [tasks, others, current, tasksIn_waiting, lower, paused, World.switchTo] using h.trans h'

theorem thread_begun (m : Machine) (name : String) (inherits : Bool) (body : Work)
    (next : Waited → Work) :
    ∃ t, Begun m (m.thread name inherits body next) t := by
  unfold thread
  cases inherits with
  | false => exact ⟨_, rfl, fun _ => .inl rfl, Nat.le_refl _, rfl⟩
  | true =>
    refine ⟨m.world.bound.2.threadCount, ?_, fun d => ?_, ?_, ?_⟩
    · simp [tasks, others, current, tasksIn, World.startThread]
    · have h : Op.Change .bound m.world d (m.world.bound.2.context d) := .bound m.world d
      cases h with
      | stays h => exact .inl h
      | made u hd h => exact .inr ⟨hd, u, h⟩
      | written _ h | pushed _ h | popped _ h => cases h
    · exact (World.Grows.bound m.world).contextCount
    · show m.world.bound.2.tokenCount = _
      unfold World.bound
      split <;> rfl

theorem call_turn (x : Executor) (m : Machine) {mode : Mode} {c : Call} {body : Work}
    {next : Ending → Work} (hm : m.work = .call mode c body next) :
    Turn x m (m.call x mode c body next) := by
  unfold call
  rcases h : m.world.enter x c with ⟨⟨hold, span⟩ | e | text, w₁⟩
  · obtain ⟨i, -, hhold, hq⟩ := World.enter_ok h
    have hctx : ∀ d, w₁.context d = if c.context = d then
        ((m.world.context d).push (some ⟨m.world.tokenCount, i⟩)).2 else m.world.context d := fun d =>
      (hq.context d).trans (World.context_pushed ..)
    have hshown : (w₁.context c.context).visible = some ⟨m.world.tokenCount, i⟩ := by
      rw [hctx, if_pos rfl]; rfl
    refine .installed ⟨m.current.party, hold, ⟨m.world.tokenCount, i⟩⟩ ?_
    subst hhold
    refine ⟨?_, ⟨mode, c, body, next, hm, rfl⟩, rfl, rfl, rfl, ?_, ?_, hctx, hq.contextCount,
      hq.tokenCount⟩
    · simp [installs, hm, h, hshown]
    · simp [current, tasksIn, hq.running, World.pushed, World.mint, World.setContext]
    · simp [others, tasksIn, hq.running, World.pushed, World.mint, World.setContext]
  all_goals
    obtain ⟨-, hq⟩ := World.enter_failed h rfl
    refine .released [] (by simp [installs, hm, h]) (.of_perm ?_ hq.pops)
    simp [tasks, others, current, hq.running]

/-- Every step takes one of the four turns. -/
theorem step_turn (x : Executor) (m : Machine) (hk : (m.futures.map Prod.fst).Nodup) :
    Turn x m (m.step x) := by
  unfold step
  split <;> rename_i hm
  · rename_i e
    obtain ⟨gone, h⟩ := finish_released m e
    exact .released gone (by simp [installs, hm]) h
  · rename_i op next
    have hg := (Op.perform_grows x m.world op).running
    refine .operated op next hm ?_ rfl
    simp [tasks, others, current, hg]
  · exact call_turn x m hm
  · rename_i name body next
    obtain ⟨gone, h⟩ := future_released hk name body next
    exact .released gone (by simp [installs, hm]) h
  · rename_i name next
    exact .released [] (by simp [installs, hm]) (poll_released hk name next)
  · rename_i name next
    obtain ⟨gone, h⟩ := drop_released hk name (next (m.futures.find? name).isSome)
    exact .released gone (by simp [installs, hm]) h
  · rename_i next
    obtain ⟨gone, h⟩ := yield_released hk next
    exact .released gone (by simp [installs, hm]) h
  · rename_i name inherits body next
    obtain ⟨t, h⟩ := thread_begun m name inherits body next
    exact .begun t (by simp [installs, hm]) h
  · rename_i next
    exact .released [] (by simp [installs, hm]) (pause_released m next)
  · rename_i name next
    exact .released [] (by simp [installs, hm]) (resume_released m name next)

theorem step_futures_nodup (x : Executor) (m : Machine) (hk : (m.futures.map Prod.fst).Nodup) :
    ((m.step x).futures.map Prod.fst).Nodup := by
  have hdrop : ∀ (m : Machine) (name : String), (m.futures.map Prod.fst).Nodup →
      ((m.dropFuture name).futures.map Prod.fst).Nodup := fun m name h =>
    futures_dropFuture m name ▸ Table.nodup_erase h name
  unfold step
  split
  · unfold finish; split <;> exact hk
  · exact hk
  · unfold call; split <;> exact hk
  · exact Table.nodup_put (hdrop m _ hk) _ _
  · unfold poll; split
    · exact hk
    · exact Table.nodup_erase hk _
  · exact hdrop m _ hk
  · unfold yield; split
    · exact hk
    · exact Table.nodup_put (hdrop { m with world := m.world.exitAll _ } _ hk) _ _
  · unfold thread; split; exact hk
  · unfold pause; split <;> exact hk
  · unfold resume; split <;> exact hk

theorem run_futures_nodup (x : Executor) (n : Nat) (m : Machine)
    (hk : (m.futures.map Prod.fst).Nodup) : ((m.run x n).futures.map Prod.fst).Nodup := by
  induction n with
  | zero => exact hk
  | succ n ih => rw [run_succ']; exact step_futures_nodup x _ ih

theorem Turn.grows (h : Turn x m m') : m.world.contextCount ≤ m'.world.contextCount ∧
    m.world.tokenCount ≤ m'.world.tokenCount := by
  cases h with
  | operated op next _ _ hw =>
    have hg := Op.perform_grows x m.world op
    exact hw ▸ ⟨hg.contextCount, hg.tokenCount⟩
  | installed i hi =>
    exact ⟨Nat.le_of_eq hi.contextCount.symm, hi.tokenCount ▸ Nat.le_succ _⟩
  | begun t _ hb => exact ⟨hb.contextCount, Nat.le_of_eq hb.tokenCount.symm⟩
  | released gone _ hr =>
    exact ⟨Nat.le_of_eq hr.world.contextCount.symm, Nat.le_of_eq hr.world.tokenCount.symm⟩

end Machine
end Guise

import Guise.Proofs.Stories
import Mathlib.Data.List.Nodup

/-!
# Coming back to where a call was made

`Machine.Back x m k`: after `k` steps nothing is in progress in the thread of `m` above what was there,
for the first time. A synchronous call and a poll put a level there that only its own end takes away:
a suspended future takes with it the asynchronous calls above its poll and nothing else
(`Shift.inside`). So when the thread is back it is the one that runs, the same is in progress in it, and
the work goes on after the call or the poll (`back_call`, `back_poll`).

`Underway` are the calls that have begun and not ended, wherever they are: in the thread that runs, in
one that waits or has paused, or in a suspended future. Each was begun by a step (`underway_origin`).
-/

namespace Guise.Machine
variable {x : Executor} {m m' : Machine} {t : Nat} {l : Level} {r : List Level}

/-- What is in progress in the running thread, the latest first. -/
def levels (m : Machine) : List Level := (lanesIn m.stack).1

theorem levels_of_lanes {rest : List Lane} (h : m.lanes = ⟨t, r⟩ :: rest) :
    m.world.running = t ∧ m.levels = r := by
  have hhead := (List.cons.inj h).1
  exact ⟨congrArg Lane.thread hhead, congrArg Lane.levels hhead⟩

theorem mem_lanes (m : Machine) : ⟨m.world.running, m.levels⟩ ∈ m.lanes := List.mem_cons_self ..

theorem Crewed.unique (h : m.Crewed) {k k' : Lane} (hk : k ∈ m.lanes) (hk' : k' ∈ m.lanes)
    (ht : k.thread = k'.thread) : k = k' := List.inj_on_of_nodup_map h.nodup hk hk' ht

/-- More is in progress in a thread than these levels. -/
def Above (t : Nat) (r : List Level) (m : Machine) : Prop :=
  ∃ ls, ls ≠ [] ∧ ⟨t, ls ++ r⟩ ∈ m.lanes

/-- A level is in progress in a thread, above certain others. -/
def Inside (t : Nat) (l : Level) (r : List Level) (m : Machine) : Prop :=
  ∃ ls, ⟨t, ls ++ l :: r⟩ ∈ m.lanes

/-- After so many steps no more is in progress in the thread that ran than did then, for the first
time. -/
structure Back (x : Executor) (m : Machine) (k : Nat) : Prop where
  pos : 0 < k
  above : ∀ i, 0 < i → i < k → Above m.world.running m.levels (m.run x i)
  back : ¬ Above m.world.running m.levels (m.run x k)

theorem Inside.above (h : Inside t l r m) : Above t r m := by
  obtain ⟨ls, h⟩ := h
  refine ⟨ls ++ [l], by simp, ?_⟩
  rw [List.append_assoc]
  exact h

theorem not_above (hc : m.Crewed) (h : ⟨t, r⟩ ∈ m.lanes) : ¬ Above t r m := by
  rintro ⟨ls, hne, hls⟩
  have hsame := congrArg Lane.levels (hc.unique hls h rfl)
  exact hne (List.append_left_eq_self.1 hsame)

/-- Where a level is left with the asynchronous calls above it, another level is that one or below. -/
theorem below_calls {calls : List Activation} {k : Level} {ls r' : List Level}
    (hl : ∀ a, l ≠ .running .async a)
    (h : ls ++ l :: r = calls.map (.running .async) ++ k :: r') :
    (l = k ∧ r = r') ∨ ∃ ks, r' = ks ++ l :: r := by
  rcases List.append_eq_append_iff.1 h with ⟨ks, hcalls, hks⟩ | ⟨ks, -, hks⟩
  · cases ks with
    | nil => exact .inl (List.cons.inj hks)
    | cons k' ks =>
      obtain ⟨rfl, -⟩ := List.cons.inj hks
      have hmem : l ∈ calls.map (.running .async) := hcalls ▸ by simp
      obtain ⟨a, -, ha⟩ := List.mem_map.1 hmem
      exact absurd ha.symm (hl a)
  · cases ks with
    | nil => exact .inl ((List.cons.inj hks).imp Eq.symm Eq.symm)
    | cons k' ks => exact .inr ⟨ks, (List.cons.inj hks).2⟩

/-- While a level other than an asynchronous call is in progress, a step leaves it there or goes on
after it. -/
theorem Shift.inside (hs : Shift m m') (hl : ∀ a, l ≠ .running .async a) (h : Inside t l r m) :
    Inside t l r m' ∨ m'.world.running = t ∧ m'.levels = r ∧ l.GoesOn m'.work := by
  obtain ⟨ls, h⟩ := h
  cases hs with
  | pushed ls' r' rest hlanes hlanes' =>
    rw [hlanes] at h
    rcases List.mem_cons.1 h with heq | hrest
    · cases heq
      refine .inl ⟨ls' ++ ls, ?_⟩
      rw [hlanes', List.append_assoc]
      exact List.mem_cons_self ..
    · exact .inl ⟨ls, hlanes' ▸ List.mem_cons_of_mem _ hrest⟩
  | popped calls k r' rest hlanes hlanes' hgoes =>
    rw [hlanes] at h
    rcases List.mem_cons.1 h with heq | hrest
    · obtain ⟨hthread, hlevels⟩ := Lane.mk.inj heq
      rcases below_calls hl hlevels with ⟨rfl, rfl⟩ | ⟨ks, rfl⟩
      · obtain ⟨hrun, hr⟩ := levels_of_lanes hlanes'
        exact .inr ⟨hrun.trans hthread.symm, hr, hgoes⟩
      · exact .inl ⟨ks, hlanes' ▸ hthread ▸ List.mem_cons_self ..⟩
    · exact .inl ⟨ls, hlanes' ▸ List.mem_cons_of_mem _ hrest⟩
  | begun _ _ _ _ _ _ hlanes => exact .inl ⟨ls, hlanes ▸ List.mem_cons_of_mem _ h⟩
  | ended u hlanes =>
    rw [hlanes] at h
    rcases List.mem_cons.1 h with heq | hrest
    · have hlevels := congrArg Lane.levels heq
      simp at hlevels
    · exact .inl ⟨ls, hrest⟩
  | passed u hlanes => exact .inl ⟨ls, hlanes.mem_iff.1 h⟩

/-- A thread that is back after a level was put above what was in progress runs, and goes on after that
level. -/
theorem Back.goesOn {k : Nat} (hk : Back x m k) (hc : ∀ i, (m.run x i).Crewed)
    (hl : ∀ a, l ≠ .running .async a) (h : Inside m.world.running l m.levels (m.run x 1)) :
    (m.run x k).world.running = m.world.running ∧ (m.run x k).levels = m.levels ∧
      l.GoesOn (m.run x k).work := by
  have hstep : ∀ i, Inside m.world.running l m.levels (m.run x i) →
      Inside m.world.running l m.levels (m.run x (i + 1)) ∨
        (m.run x (i + 1)).world.running = m.world.running ∧
          (m.run x (i + 1)).levels = m.levels ∧ l.GoesOn (m.run x (i + 1)).work := by
    intro i hi
    rw [run_succ']
    exact (step_shift x (m.run x i)).inside hl hi
  have hinside : ∀ i, i + 1 < k → Inside m.world.running l m.levels (m.run x (i + 1)) := by
    intro i
    induction i with
    | zero => exact fun _ => h
    | succ i ih =>
      intro hi
      rcases hstep (i + 1) (ih (Nat.lt_of_succ_lt hi)) with hin | ⟨hrun, hlevels, -⟩
      · exact hin
      · have hmem := (m.run x (i + 2)).mem_lanes
        rw [hrun, hlevels] at hmem
        exact absurd (hk.above (i + 2) (Nat.succ_pos _) hi) (not_above (hc _) hmem)
  obtain ⟨j, rfl⟩ : ∃ j, k = j + 1 := ⟨k - 1, (Nat.succ_pred_eq_of_pos hk.pos).symm⟩
  cases j with
  | zero => exact absurd h.above hk.back
  | succ j =>
    rcases hstep (j + 1) (hinside j (Nat.lt_succ_self _)) with hin | hback
    · exact absurd hin.above hk.back
    · exact hback

/-- If no more is in progress after the first step, the thread is back then. -/
theorem Back.eq_one {k : Nat} (hk : Back x m k) (hc : (m.run x 1).Crewed)
    (hrun : (m.run x 1).world.running = m.world.running) (hl : (m.run x 1).levels = m.levels) :
    k = 1 := by
  rcases Nat.lt_or_eq_of_le (Nat.succ_le_of_lt hk.pos) with hlt | heq
  · have hmem := (m.run x 1).mem_lanes
    rw [hrun, hl] at hmem
    exact absurd (hk.above 1 Nat.one_pos hlt) (not_above hc hmem)
  · exact heq.symm

section Back
variable {k : Nat} (hk : Back x m k) (hc : ∀ i, (m.run x i).Crewed)
include hk hc

/-- A synchronous call comes back with its ending, or with its failure to begin. -/
theorem back_call {c : Call} {body : Work} {next : Ending → Work}
    (hm : m.work = .call .sync c body next) :
    (m.run x k).world.running = m.world.running ∧ (m.run x k).levels = m.levels ∧
      ∃ e, (m.run x k).work = next e := by
  have hone : m.run x 1 = m.step x := run_succ x 0 m
  rcases World.enter_ok_or_failed x m.world c with ⟨hold, span, w, h⟩ | ⟨o, e, w, h, he⟩
  · have hrun := (World.enter_grows x m.world c).running
    rw [h] at hrun
    refine hk.goesOn (l := .running .sync ⟨hold, span, next⟩) hc (fun _ h => by cases h) ⟨[], ?_⟩
    rw [hone, step_call_ok hm h, ← hrun]
    exact List.mem_cons_self ..
  · have hrun := (World.enter_grows x m.world c).running
    rw [h] at hrun
    have hstep := hone.trans (step_call_failed hm h he)
    have hsame : (m.run x 1).world.running = m.world.running ∧ (m.run x 1).levels = m.levels := by
      rw [hstep]
      exact ⟨hrun, rfl⟩
    obtain rfl := hk.eq_one (hc 1) hsame.1 hsame.2
    exact ⟨hsame.1, hsame.2, e, by rw [hstep]⟩

/-- A poll comes back with what it found: an ending, a suspended future, or none. -/
theorem back_poll {name : String} {next : Polled → Work} (hm : m.work = .poll name next) :
    (m.run x k).world.running = m.world.running ∧ (m.run x k).levels = m.levels ∧
      ∃ p, (m.run x k).work = next p := by
  have hstep : m.run x 1 = m.poll name next := by
    rw [run_succ, run]
    simp only [step, hm]
  rcases hf : m.futures.find? name with _ | f
  · have hgone : m.run x 1 = { m with work := next .gone } := by
      rw [hstep, poll, hf]
    have hsame : (m.run x 1).world.running = m.world.running ∧ (m.run x 1).levels = m.levels := by
      rw [hgone]
      exact ⟨rfl, rfl⟩
    obtain rfl := hk.eq_one (hc 1) hsame.1 hsame.2
    exact ⟨hsame.1, hsame.2, .gone, by rw [hgone]⟩
  · refine hk.goesOn (l := .polling name next) hc (fun _ h => by cases h)
      ⟨f.calls.map (.running .async), ?_⟩
    have hrun := (World.Quiet.enterAll m.world f.calls).running
    have hlevels : (lanesIn (f.calls.map (.running .async) ++ .polling name next :: m.stack)).1 =
        f.calls.map (.running .async) ++ .polling name next :: m.levels := by
      have hsplit : f.calls.map (.running .async) ++ .polling name next :: m.stack =
          (f.calls.map (.running .async) ++ [.polling name next]) ++ m.stack := by simp
      rw [hsplit, lanesIn_append (Level.waits_calls rfl), List.append_assoc]
      rfl
    have hmem := (m.run x 1).mem_lanes
    rw [hstep, poll, hf] at hmem ⊢
    simp only [levels, hrun, hlevels] at hmem ⊢
    exact hmem

end Back

/-! ### Calls that have begun -/

/-- A call that has begun and not ended. -/
inductive Underway (mode : Mode) (a : Activation) (m : Machine) : Prop
  | stacked : .running mode a ∈ m.stack → Underway mode a m
  | paused (p : Paused) : p ∈ m.paused → .running mode a ∈ p.levels → Underway mode a m
  | suspended (name : String) (f : Future) : mode = .async → m.futures.find? name = some f →
      a ∈ f.calls → Underway mode a m

/-- The next step begins a call with an identity. -/
def Begins (x : Executor) (mode : Mode) (a : Activation) (i : Identity) (m : Machine) : Prop :=
  ∃ c body, m.work = .call mode c body a.next ∧
    (m.world.resolveCall x c.assumed).value = .ok i ∧ a = m.world.activation c i a.next

section Underway
variable {mode : Mode} {a : Activation}

/-- Only the stack of the running thread is another one. -/
theorem Underway.of_stack (h : Underway mode a m')
    (hs : .running mode a ∈ m'.stack → Underway mode a m) (hp : m'.paused = m.paused)
    (hf : m'.futures = m.futures) : Underway mode a m := by
  rcases h with h | ⟨p, hmem, h⟩ | ⟨name, f, hmode, hfind, h⟩
  · exact hs h
  · exact .paused p (hp ▸ hmem) h
  · exact .suspended name f hmode (hf ▸ hfind) h

theorem Underway.of_same (h : Underway mode a m') (hs : m'.stack = m.stack)
    (hp : m'.paused = m.paused) (hf : m'.futures = m.futures) : Underway mode a m :=
  h.of_stack (fun hmem => .stacked (hs ▸ hmem)) hp hf

theorem underway_dropFuture (name : String) (h : Underway mode a (m.dropFuture name)) :
    Underway mode a m := by
  have hpaused : (m.dropFuture name).paused = m.paused := by unfold dropFuture; split <;> rfl
  rcases h with h | ⟨p, hmem, h⟩ | ⟨name', f, hmode, hfind, h⟩
  · exact .stacked (stack_dropFuture m name ▸ h)
  · exact .paused p (hpaused ▸ hmem) h
  · rw [futures_dropFuture, Table.find?_erase] at hfind
    split at hfind
    · cases hfind
    · exact .suspended name' f hmode hfind h

/-- A future is put in place of one that is dropped. -/
theorem Underway.of_put {name : String} {f : Future} {stack : List Level} {work : Work}
    (h : Underway mode a { m.dropFuture name with
      work := work, stack := stack, futures := (m.dropFuture name).futures.put name f })
    (hs : .running mode a ∈ stack → Underway mode a m)
    (hf : mode = .async → a ∈ f.calls → Underway mode a m) : Underway mode a m := by
  rcases h with h | ⟨p, hmem, h⟩ | ⟨name', f', hmode, hfind, h⟩
  · exact hs h
  · exact underway_dropFuture name (.paused p hmem h)
  · rw [Table.find?_put] at hfind
    split at hfind
    · cases hfind
      exact hf hmode h
    · exact underway_dropFuture name (.suspended name' f' hmode hfind h)

theorem underway_finish {e : Ending} (h : Underway mode a (m.finish e)) : Underway mode a m := by
  unfold finish at h
  split at h <;> rename_i hs
  · exact h
  all_goals exact h.of_stack (fun hmem => .stacked (hs ▸ List.mem_cons_of_mem _ hmem)) rfl rfl

theorem underway_poll {name : String} {next : Polled → Work} (h : Underway mode a (m.poll name next)) :
    Underway mode a m := by
  unfold poll at h
  split at h
  · exact h.of_same rfl rfl rfl
  · rename_i f hf
    rcases h with h | ⟨p, hmem, h⟩ | ⟨name', f', hmode, hfind, h⟩
    · rcases List.mem_append.1 h with h | h
      · obtain ⟨b, hb, heq⟩ := List.mem_map.1 h
        cases heq
        exact .suspended name f rfl hf hb
      · exact .stacked (List.mem_of_ne_of_mem (y := .polling name next) nofun h)
    · exact .paused p hmem h
    · rw [Table.find?_erase] at hfind
      split at hfind
      · cases hfind
      · exact .suspended name' f' hmode hfind h

theorem underway_yield {next : Work} (h : Underway mode a (m.yield next)) : Underway mode a m := by
  unfold yield at h
  split at h
  · exact h.of_same rfl rfl rfl
  · rename_i calls name polled rest hs
    have hstack := splitPoll_eq hs
    have hleft : Underway mode a { m with world := m.world.exitAll calls } := by
      refine h.of_put (fun hmem => .stacked ?_) ?_
      · show _ ∈ m.stack
        rw [hstack]
        exact List.mem_append_right _ (List.mem_cons_of_mem _ hmem)
      · rintro rfl hmem
        refine .stacked ?_
        show _ ∈ m.stack
        rw [hstack]
        exact List.mem_append_left _ (List.mem_map_of_mem hmem)
    exact hleft.of_same rfl rfl rfl

theorem underway_pause {next : Bool → Work} (h : Underway mode a (m.pause next)) :
    Underway mode a m := by
  unfold pause at h
  split at h
  · exact h.of_same rfl rfl rfl
  · rename_i levels name waiter waited rest hs
    have hstack := splitThread_eq hs
    rcases h with h | ⟨p, hmem, h⟩ | ⟨name', f, hmode, hfind, h⟩
    · refine .stacked ?_
      rw [hstack]
      exact List.mem_append_right _ (List.mem_cons_of_mem _ h)
    · rcases List.mem_cons.1 hmem with rfl | hmem
      · refine .stacked ?_
        rw [hstack]
        exact List.mem_append_left _ h
      · -- losing its name changes nothing in a thread
        obtain ⟨q, hq, rfl⟩ := List.mem_map.1 hmem
        have hlevels : (q.unnamed name).levels = q.levels := by unfold Paused.unnamed; split <;> rfl
        exact .paused q hq (hlevels ▸ h)
    · exact .suspended name' f hmode hfind h

theorem underway_resume {name : String} {next : Waited → Work}
    (h : Underway mode a (m.resume name next)) : Underway mode a m := by
  unfold resume at h
  split at h
  · exact h.of_same rfl rfl rfl
  · rename_i p hp
    rcases h with h | ⟨q, hmem, h⟩ | ⟨name', f, hmode, hfind, h⟩
    · rcases List.mem_append.1 h with h | h
      · exact .paused p (List.mem_of_find?_eq_some hp) h
      · exact .stacked (List.mem_of_ne_of_mem (y := .waiting name _ next) nofun h)
    · exact .paused q (List.mem_of_mem_eraseP hmem) h
    · exact .suspended name' f hmode hfind h

/-- What is underway after a step was so before, or the step began it. -/
theorem step_underway (h : Underway mode a (m.step x)) :
    Underway mode a m ∨ ∃ i, Begins x mode a i m := by
  unfold step at h
  split at h <;> rename_i hm
  · exact .inl (underway_finish h)
  · exact .inl (h.of_same rfl rfl rfl)
  · rename_i mode' c body next
    unfold call at h
    rcases hv : (m.world.resolveCall x c.assumed).value with i | e | text
    · rw [World.enter_of_ok next hv] at h
      rcases h with h | ⟨p, hmem, h⟩ | ⟨name, f, hmode, hfind, h⟩
      · rcases List.mem_cons.1 h with heq | h
        · cases heq
          exact .inr ⟨i, c, body, hm, hv, rfl⟩
        · exact .inl (.stacked h)
      · exact .inl (.paused p hmem h)
      · exact .inl (.suspended name f hmode hfind h)
    · rw [World.enter_of_error hv] at h
      exact .inl (h.of_same rfl rfl rfl)
    · rw [World.enter_of_panic hv] at h
      exact .inl (h.of_same rfl rfl rfl)
  · rename_i name body next
    refine .inl (h.of_put (fun hmem => ?_) fun _ hmem => absurd hmem List.not_mem_nil)
    exact .stacked (stack_dropFuture m name ▸ hmem)
  · exact .inl (underway_poll h)
  · rename_i name next
    exact .inl (underway_dropFuture name (h.of_same rfl rfl rfl))
  · exact .inl (underway_yield h)
  · refine .inl (h.of_stack (fun hmem => ?_) rfl rfl)
    exact .stacked (List.mem_of_ne_of_mem (y := .waiting _ _ _) nofun hmem)
  · exact .inl (underway_pause h)
  · exact .inl (underway_resume h)

/-- What is underway was begun. -/
theorem underway_origin {work : Work} {w : World} {n : Nat}
    (h : Underway mode a ((start work w).run x n)) :
    ∃ k < n, ∃ i, Begins x mode a i ((start work w).run x k) := by
  induction n with
  | zero => rcases h with h | ⟨p, hmem, h⟩ | ⟨name, f, hmode, hfind, h⟩ <;> contradiction
  | succ n ih =>
    rw [run_succ'] at h
    rcases step_underway h with hold | hnew
    · obtain ⟨k, hk, hi⟩ := ih hold
      exact ⟨k, Nat.lt_succ_of_lt hk, hi⟩
    · exact ⟨n, Nat.lt_succ_self n, hnew⟩

end Underway

end Guise.Machine

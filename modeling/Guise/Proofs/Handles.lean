import Guise.Proofs.ByHand

/-!
# A handle in another context

A handle is a number, and each context counts its own, so a handle that one context gave out may be the
number of a frame in another. There it takes away just that frame, whoever holds it
(`Context.WellNumbered.pop_of_mem`). When it is the frame of a call that has begun, the work that follows
runs in the slot of the caller, and the end of the call takes nothing back (`Machine.call_unframed`).
-/

namespace Guise

namespace Context
variable {y : Context} {n : Nat}

theorem WellNumbered.pop_eq_iff (h : y.WellNumbered) : y.pop n = (false, y) ↔ n ∉ y.numbers := by
  refine ⟨fun heq hn => ?_, pop_absent⟩
  rw [h.pop_eq, decide_eq_true hn] at heq
  cases heq

theorem WellNumbered.pop_of_mem (h : y.WellNumbered) (hn : n ∈ y.numbers) :
    ∃ above f below, y.frames = above ++ f :: below ∧ f.number = n ∧
      y.pop n = (true, { y with frames := above ++ below }) := by
  obtain ⟨f, hf, rfl⟩ := List.mem_map.1 hn
  obtain ⟨above, below, hframes⟩ := List.append_of_mem hf
  refine ⟨above, f, below, hframes, rfl, ?_⟩
  have hleft : y.frames.filter (·.number ≠ f.number) = above ++ below := by
    rw [← h.frames_pop hframes, h.pop_eq]
  rw [h.pop_eq, hleft, decide_eq_true hn]

end Context

/-- A program never brings back a number that was handed out and stands on no frame. -/
theorem Program.eval_retired (x : Executor) (p : Program) {w : World} {d n : Nat}
    (hd : d < w.contextCount) (hw : (w.context d).WellNumbered) (hn : n < (w.context d).next)
    (hout : n ∉ (w.context d).numbers) : n ∉ ((p.eval x w).world.context d).numbers := by
  have hwork := p.eval_worked x hd hw
  rw [hwork.numbers, List.mem_append, List.mem_reverse, List.mem_filter, List.mem_filter]
  rintro (⟨hin, -⟩ | ⟨hfound, -⟩)
  · exact Nat.not_lt.2 (hwork.fresh n hin) hn
  · exact hout hfound

namespace Machine

/-- Work that pops the frame of its own call, with whatever handle, goes on in the slot of the caller. -/
theorem call_unframed {x : Executor} {m : Machine} {d : Nat} {assumed : Assumed} {rest : Program}
    {next : Ending → Work} {i : Identity} (hd : d < m.world.contextCount)
    (hy : (m.world.context d).WellNumbered)
    (hm : m.work =
      .call .sync ⟨d, assumed⟩ (Program.act (.pop d (m.world.context d).next) fun _ => rest).work next)
    (hv : (m.world.resolveCall x assumed).value = .ok i) :
    ∃ k w w', m.run x (k + 2) = { m with work := next (rest.eval x w).ending, world := w' } ∧
      w.context d = { m.world.context d with next := (m.world.context d).next + 1 } ∧
      (∀ c, c ≠ d → w.context c = m.world.context c) ∧
      ∀ c, w'.context c = (rest.eval x w).world.context c := by
  rcases World.enter_ok_or_failed x m.world ⟨d, assumed⟩ with ⟨hold, span, w₁, h⟩ | ⟨o, e, w₁, h, he⟩
  · obtain ⟨j, -, rfl, hq⟩ := World.enter_ok h
    obtain ⟨k, -, -, hend⟩ := Program.reaches_call hm h
    let w := w₁.setContext d ((w₁.context d).pop (m.world.context d).next).2
    have hw : w.context d = { m.world.context d with next := (m.world.context d).next + 1 } := by
      rw [World.context_setContext, if_pos rfl, hq.context, World.context_pushed, if_pos rfl,
        (Context.Rewritten.refl _).pop_push]
      rfl
    have hretired : (m.world.context d).next ∉ ((rest.eval x w).world.context d).numbers := by
      refine rest.eval_retired x (Nat.lt_of_lt_of_eq hd hq.contextCount.symm) ?_ ?_ ?_ <;> rw [hw]
      · exact ⟨hy.descending, fun n hn => Nat.lt_succ_of_lt (hy.below n hn)⟩
      · exact Nat.lt_succ_self _
      · exact fun hin => Nat.lt_irrefl _ (hy.below _ hin)
    refine ⟨k, w, _, hend, hw, fun c hc => ?_, fun c => ?_⟩
    · rw [World.context_setContext, if_neg hc.symm, hq.context, World.context_pushed, if_neg hc.symm]
    · -- the call has no frame left to take back
      rw [(World.leave_quiet ..).context, World.context_popped]
      split
      · rename_i hdc
        cases hdc
        exact congrArg Prod.snd (Context.pop_absent hretired)
      · rfl
  · obtain ⟨hfailed, -⟩ := World.enter_failed h he
    rw [show (m.world.resolveCall x assumed).value = _ from hv] at hfailed
    cases hfailed

/-- A handle is the number that comes next in the context that gives it out. Later, in any context, it does
nothing exactly where no frame has the number, as in a context that has handed out no more than so many;
and where a frame has it, that one frame goes, no matter which context gave out the handle. If that is the
frame of a call that has just begun, the rest of the call's work finds the context of the caller, and the
end of the call leaves it as the work has left it. -/
theorem handle_acts_by_number (x : Executor) (work : Work) (w : World) (c d n k : Nat)
    (t : Option Token) (next : Nat → Work) (hr : (w.context d).Reachable)
    (hm : ((start work w).run x n).work = .act (.push c t) next) :
    let m := (start work w).run x n
    let handle := (m.world.context c).next
    let s := (start work w).run x (n + 1 + k)
    let y := s.world.context d
    (m.step x).work = next handle ∧
    (y.pop handle = (false, y) ↔ handle ∉ y.numbers) ∧
    (y.next ≤ handle → y.pop handle = (false, y)) ∧
    (handle ∈ y.numbers → ∃ above f below, y.frames = above ++ f :: below ∧ f.number = handle ∧
      y.pop handle = (true, { y with frames := above ++ below })) ∧
    (∀ assumed i rest fin, d < s.world.contextCount → y.next = handle →
      (s.world.resolveCall x assumed).value = .ok i →
      s.work = .call .sync ⟨d, assumed⟩ (Program.act (.pop d handle) fun _ => rest).work fin →
      ∃ k w₁ w₂, s.run x (k + 2) = { s with work := fin (rest.eval x w₁).ending, world := w₂ } ∧
        w₁.context d = { y with next := y.next + 1 } ∧
        (∀ b, b ≠ d → w₁.context b = s.world.context b) ∧
        ∀ b, w₂.context b = (rest.eval x w₁).world.context b) := by
  intro m handle s y
  have hy : y.WellNumbered := (run_reachable x work hr _).wellNumbered
  refine ⟨?_, hy.pop_eq_iff, fun hnext => ?_, hy.pop_of_mem, fun assumed i rest fin hd hnext hv hs => ?_⟩
  · rw [step, hm]
    rfl
  · exact Context.pop_absent fun hin => Nat.not_lt.2 hnext (hy.below _ hin)
  · rw [← hnext] at hs
    exact call_unframed hd hy hs hv

/-- A frame pushed in a new context, whose handle is popped in another one inside a call there, before
something is written. -/
def poppedElsewhere : Work :=
  .act (.newContext none) fun other => .act (.push other none) fun handle =>
  .call .sync ⟨0, .anonymous⟩ (.act (.pop 0 handle) fun _ =>
    .act (.put 0 (some ⟨7, ⟨"ann", .empty, .user⟩⟩)) fun _ => .done (.ok .null)) .done

theorem handle_acts_by_number_poppedElsewhere :
    let x := Executor.ofConfig .default
    let t : Token := ⟨7, ⟨"ann", .empty, .user⟩⟩
    let s := (start poppedElsewhere (.bare .empty)).run x 2
    (s.world.context 0).base = none ∧
      ∃ k w, s.run x (k + 2) = { s with work := .done (.ok .null), world := w } ∧
        (w.context 0).base = some t := by
  intro x t s
  obtain ⟨-, -, -, -, hcall⟩ :=
    handle_acts_by_number x poppedElsewhere (.bare .empty) 1 0 1 0 none _ (.new none) rfl
  obtain ⟨k, w₁, w₂, hrun, hw₁, -, hw₂⟩ := hcall .anonymous x.anonymous
    (.act (.put 0 (some t)) fun _ => .done (.ok .null)) .done (by decide) (by decide) rfl rfl
  refine ⟨by decide, k, w₂, hrun, ?_⟩
  rw [hw₂]
  show ((w₁.setContext 0 ((w₁.context 0).put (some t))).context 0).base = _
  rw [World.context_setContext, if_pos rfl, hw₁]
  rfl

/-- A handle does not act only in the context that gave it out: inside a call it may be popped in the
context of the call and take away the frame of the call. -/
theorem handle_acts_elsewhere : ¬ ∀ (x : Executor) (work : Work) (w : World) (c d n k : Nat)
    (t : Option Token) (next : Nat → Work), c ≠ d → (∀ b, (w.context b).Reachable) →
    ((start work w).run x n).work = .act (.push c t) next →
    let handle := (((start work w).run x n).world.context c).next
    let y := ((start work w).run x (n + 1 + k)).world.context d
    y.pop handle = (false, y) := by
  intro h
  have hfalse := h (.ofConfig .default) poppedElsewhere (.bare .empty) 1 0 1 1 none _ (by decide)
    (fun b => ?_) rfl
  · exact absurd (congrArg Prod.fst hfalse) (by decide)
  · cases b <;> exact .new none

end Machine
end Guise

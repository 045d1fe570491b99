import Guise.Proofs.Program

/-!
# A synchronous call gives back what it took

While the work of a call runs, the call's own frame is on top of the context at every return to its
level: a program that pushes and pops nothing by hand there only rewrites the slot that shows
(`Program.eval_rewritten`), and nested calls take their own frames back first. So the pop at the end
of the call finds its frame on top, and base and frames are what they were at entry.
-/

namespace Guise

namespace Program

/-- The program pushes and pops nothing by hand in a context. -/
def Scoped (c : Nat) (p : Program) : Prop := p.Uses (·.stacked? ≠ some c) fun _ => True

/-- A scoped program changes of its context at most the slot that shows and the next number. -/
theorem eval_rewritten (x : Executor) {c : Nat} (p : Program) (hp : p.Scoped c) (w : World)
    (hc : c < w.contextCount) : (w.context c).Rewritten ((p.eval x w).world.context c) := by
  induction p generalizing w with
  | done e => exact .refl _
  | act op next ih =>
    have hg := Op.perform_grows x w op
    refine .trans ?_ (ih _ (hp.2 _) _ (Nat.lt_of_lt_of_le hc hg.contextCount))
    cases Op.perform_change x w op c with
    | stays hy => rw [hy]; exact .refl _
    | written t _ hy => rw [hy]; exact .put _ t
    | pushed t hs => exact absurd hs hp.1
    | popped n hs => exact absurd hs hp.1
    | made t hd => exact absurd hd (Nat.ne_of_gt hc)
  | call d body next ihb ihn =>
    have hg := World.enter_grows x w d
    rcases World.enter_ok_or_failed x w d with ⟨hold, span, w₁, h⟩ | ⟨o, e, w₁, h, he⟩
    · rw [h] at hg
      have hc₁ := Nat.lt_of_lt_of_le hc hg.contextCount
      have hb := ihb hp.2.1 w₁ hc₁
      have hc₂ := Nat.lt_of_lt_of_le hc₁ (eval_grows x body w₁).contextCount
      rw [eval_call_ok h]
      refine .trans ?_ (ihn _ (hp.2.2 _) _ (Nat.lt_of_lt_of_le hc₂ (World.leave_grows ..).contextCount))
      by_cases hd : d.context = c
      · subst hd
        rw [World.leave_of_enter h hb, if_pos rfl]
        exact .of_next _
      · -- the call is in another context, so here only its body counts
        obtain ⟨i, -, rfl, hq⟩ := World.enter_ok h
        rw [(World.leave_quiet ..).context, World.popped, World.context_setContext, if_neg hd]
        rw [hq.context, World.pushed, World.context_setContext, if_neg hd] at hb
        exact hb
    · obtain ⟨-, hq⟩ := World.enter_failed h he
      rw [eval_call_failed h he, ← hq.context]
      exact ihn e (hp.2.2 e) w₁ (hq.contextCount ▸ hc)

end Program

/-- A synchronous call whose work pushes and pops nothing by hand in the call's context gets to its
ending, and then base and frames of the context are those at entry, so the same token shows and the
depth is the same. When the work ran, its own ending is what the call goes on with; else it is the
failure to resolve. -/
theorem Machine.call_restores (x : Executor) (m : Machine) (c : Call) (body : Program)
    (next : Ending → Work) (hm : m.work = .call .sync c body.work next)
    (hc : c.context < m.world.contextCount) (hb : body.Scoped c.context) :
    ∃ n e w, m.run x n = { m with work := next e, world := w } ∧
      (w.context c.context).base = (m.world.context c.context).base ∧
      (w.context c.context).frames = (m.world.context c.context).frames ∧
      (w.context c.context).visible = (m.world.context c.context).visible ∧
      (w.context c.context).depth = (m.world.context c.context).depth ∧
      match (m.world.resolveCall x c.assumed).value with
      | .ok _ => ∃ k w', n = k + 2 ∧ (m.step x).work = body.work ∧
          (m.step x).run x k = { m.step x with work := .done e, world := w' }
      | .error err => e = .error (.resolution err)
      | .panic text => e = .panic text := by
  obtain ⟨work, stack, w, futures, paused⟩ := m
  cases hm
  rcases h : w.enter x c with ⟨⟨hold, span⟩ | err | text, w₁⟩
  · obtain ⟨i, hv, -, hq⟩ := World.enter_ok h
    let a : Activation := ⟨hold, span, next⟩
    let m₁ : Machine := ⟨body.work, .running .sync a :: stack, w₁, futures, paused⟩
    have hstep : Machine.step x ⟨.call .sync c body.work next, stack, w, futures, paused⟩ = m₁ := by
      simp [Machine.step, Machine.call, h, m₁, a]
    obtain ⟨k, hk, -⟩ := body.reaches x m₁ rfl
    let s := body.eval x w₁
    have hc₁ : c.context < w₁.contextCount := by rw [hq.contextCount]; exact hc
    have hctx : (s.world.leave .sync a s.ending.isPanic).context c.context =
        { w.context c.context with next := (s.world.context c.context).next } := by
      rw [World.leave_of_enter h (body.eval_rewritten x hb w₁ hc₁), if_pos rfl]
    refine ⟨k + 2, s.ending, s.world.leave .sync a s.ending.isPanic, ?_, ?_, ?_, ?_, ?_, ?_⟩
    · rw [run_succ, run_succ', hstep, hk]; rfl
    · rw [hctx]
    · rw [hctx]
    · rw [hctx]; rfl
    · rw [hctx]; rfl
    · simp only [hv, hstep]
      exact ⟨k, s.world, rfl, rfl, hk⟩
  · obtain ⟨hv, hq⟩ := World.enter_error h
    refine ⟨1, .error (.resolution err), w₁, ?_, ?_, ?_, ?_, ?_, ?_⟩
    · rw [run_succ]; simp [Machine.step, Machine.call, h, run]
    all_goals simp only [hq.context, hv]
  · obtain ⟨hv, hq⟩ := World.enter_panic h
    refine ⟨1, .panic text, w₁, ?_, ?_, ?_, ?_, ?_, ?_⟩
    · rw [run_succ]; simp [Machine.step, Machine.call, h, run]
    all_goals simp only [hq.context, hv]

/-- Work that clears the context, makes a call in it and panics there. -/
def panicsWithin : Program :=
  .act (.put 0 none) fun _ => .call ⟨0, .anonymous⟩ (.done (.panic "inside")) .done

theorem Machine.call_restores_panicsWithin :
    let y := ((Context.ofToken none).push (some ⟨0, (Executor.ofConfig .default).anonymous⟩)).2
    let m := start (.call .sync ⟨0, .anonymous⟩ panicsWithin.work .done) (.bare y)
    ∃ n e w, m.run (.ofConfig .default) n = { m with work := .done e, world := w } ∧
      (w.context 0).base = y.base ∧ (w.context 0).frames = y.frames := by
  intro y m
  have hb : panicsWithin.Scoped 0 := ⟨nofun, fun _ => ⟨trivial, trivial, fun _ => trivial⟩⟩
  obtain ⟨n, e, w, hrun, hbase, hframes, -⟩ :=
    call_restores (.ofConfig .default) m ⟨0, .anonymous⟩ panicsWithin .done rfl (by decide) hb
  exact ⟨n, e, w, hrun, hbase, hframes⟩

end Guise

import Guise.Proofs.Stories

/-!
# The log as an audit

Calls of one context that are nested and are all that pushes or pops there leave their frames in the
order in which they took them. So each of them finds its frame on top (`Program.eval_rewritten`), and
what it tells at its end is what showed at its beginning (`Program.story_nested`). `Story.audit` is the
trace that this makes of a story: a bracket for each call that began, with the depth inside it and the
depth outside it, around the brackets of the calls inside. `Program.audited` finds it in the log.
-/

namespace Guise

namespace Story

/-- The trace of the calls of a story. -/
def audit : Story → List Notice
  | done => []
  | told ns rest => ns.filter Notice.fails ++ rest.audit
  | refused cause rest => .resolutionFailed cause :: rest.audit
  | call v inside rest =>
    .installed (v.depth + 1) :: inside.audit ++ (if v.unwinds then [.unwinding] else []) ++
      .restored v.shown v.depth :: rest.audit

/-- A story of calls that begin at a depth: what a call finds when it ends is what it found when it
began, and the calls inside it begin one deeper. -/
def Nested : Nat → Story → Prop
  | _, done => True
  | d, told _ rest | d, refused _ rest => rest.Nested d
  | d, call v inside rest =>
    v.depth = d ∧ v.closing = .restored v.shown d ∧ inside.Nested (d + 1) ∧ rest.Nested d

theorem Nested.audit_lines {s : Story} {d : Nat} (h : s.Nested d) (hs : s.Sound) (on : Bool)
    (sc : Scene) : ((s.lines on sc).map Line.notice).filter Notice.audits = s.audit := by
  induction s generalizing d sc with
  | done => rfl
  | told ns rest ih =>
    have hns : ns.filter Notice.audits = ns.filter Notice.fails := List.filter_congr hs.1
    simp only [lines, audit, List.map_append, Scene.map_notice_line, List.filter_append, hns,
      ih h hs.2 sc]
  | refused cause rest ih =>
    simp only [lines, audit, List.map_cons, Scene.notice_line]
    rw [List.filter_cons_of_pos rfl, ih h hs sc]
  | call v inside rest ihi ihr =>
    obtain ⟨hdepth, hclosing, hinside, hrest⟩ := h
    obtain ⟨-, hsinside, hsrest⟩ := hs
    have hend : v.closings.filter Notice.audits =
        (if v.unwinds then [.unwinding] else []) ++ [.restored v.shown v.depth] := by
      unfold Visit.closings
      rw [hclosing, hdepth]
      split <;> rfl
    simp only [lines, audit, List.map_append, List.map_cons, Scene.map_notice_line,
      Scene.notice_line, List.filter_append, hend, ihr hrest hsrest sc]
    rw [List.filter_cons_of_pos rfl, ihi hinside hsinside]
    simp

theorem frameGone_not_mem_audit (s : Story) (k : Nat) : .frameGone k ∉ s.audit := by
  induction s with
  | done => exact List.not_mem_nil
  | told ns rest ih => simp [audit, Notice.fails, ih]
  | refused cause rest ih => simp [audit, ih]
  | call v inside rest ihi ihr =>
    have hpanic : .frameGone k ∉ (if v.unwinds then [Notice.unwinding] else []) := by
      split <;> simp
    simp [audit, ihi, ihr, hpanic]

end Story

/-! ### Programs -/

theorem Context.Rewritten.depth {y z : Context} (h : y.Rewritten z) : z.depth = y.depth := by
  obtain ⟨t, n, rfl⟩ := h
  obtain ⟨b, fs, k⟩ := y
  cases fs <;> rfl

namespace World
variable {x : Executor} {w w' : World} {c : Call} {i : Identity}

theorem context_enter (hv : (w.resolveCall x c.assumed).value = .ok i) :
    (w.enter x c).2.context c.context =
      ((w.context c.context).push (some ⟨w.tokenCount, i⟩)).2 := by
  have hcases := enter_cases x w c
  rw [hv] at hcases
  obtain ⟨span, -, hq⟩ := hcases
  rw [hq.context, context_pushed, if_pos rfl]

/-- A call whose frame is on top when it ends tells what its context showed before it. -/
theorem closing_of_rewritten (hv : (w.resolveCall x c.assumed).value = .ok i)
    (h : ((w.enter x c).2.context c.context).Rewritten (w'.context c.context)) :
    w'.closing ⟨c.context, (w.context c.context).next⟩ =
      .restored (w.context c.context).principal (w.context c.context).depth := by
  rw [context_enter hv] at h
  unfold closing
  rw [h.pop_push]
  rfl

end World

namespace Program
variable {x : Executor} {c : Nat}

/-- Calls of one context that are all that pushes or pops there are nested. -/
theorem story_nested (x : Executor) (p : Program) (hp : p.Uses (·.stacked? ≠ some c) (·.context = c))
    (w : World) (hc : c < w.contextCount) : (p.story x w).Nested (w.context c).depth := by
  have hscoped : ∀ q : Program, q.Uses (·.stacked? ≠ some c) (·.context = c) → q.Scoped c :=
    fun q hq => hq.mono (fun _ h => h) fun _ _ => trivial
  induction p generalizing w with
  | done e => trivial
  | act op next ih =>
    let p₁ : Program := .act op fun _ => .done (.ok .null)
    have hrewritten : (w.context c).Rewritten ((op.perform x w).2.context c) :=
      p₁.eval_rewritten x ⟨hp.1, fun _ => trivial⟩ w hc
    have hc' := Nat.lt_of_lt_of_le hc (op.perform_grows x w).contextCount
    have hrest := ih (op.perform x w).1 (hp.2 _) (op.perform x w).2 hc'
    rw [hrewritten.depth] at hrest
    exact hrest
  | call d body next ihb ihn =>
    obtain ⟨rfl, hbody, hnext⟩ := hp
    let w₁ := (w.enter x d).2
    have hc₁ : d.context < w₁.contextCount := Nat.lt_of_lt_of_le hc (w.enter_grows x d).contextCount
    have hfailed : ∀ o e, w.enter x d = (o, w₁) → o.failure? = some e →
        ((next e).story x w₁).Nested (w.context d.context).depth := by
      intro o e h he
      have hrest := ihn e (hnext e) w₁ hc₁
      rw [(World.enter_failed h he).2.context] at hrest
      exact hrest
    simp only [story, Story.Nested]
    rcases hv : (w.resolveCall x d.assumed).value with i | e | text <;> dsimp only
    · let a := w.activation d i fun e => (next e).work
      let b := body.eval x w₁
      let w₂ := b.world.leave .sync a b.ending.isPanic
      have h : w.enter x d = (.ok (a.hold, a.span), w₁) := World.enter_of_ok _ hv
      have hrewritten : (w₁.context d.context).Rewritten (b.world.context d.context) :=
        body.eval_rewritten x (hscoped body hbody) w₁ hc₁
      have hclosing : b.world.closing a.hold =
          .restored (w.context d.context).principal (w.context d.context).depth :=
        World.closing_of_rewritten hv hrewritten
      have hafter : w₂.context d.context =
          { w.context d.context with next := (b.world.context d.context).next } := by
        rw [World.leave_of_enter h hrewritten, if_pos rfl]
      have hc₂ : d.context < w₂.contextCount := by
        have hgrown := (body.eval_grows x w₁).contextCount
        exact Nat.lt_of_lt_of_le hc₁ (Nat.le_trans hgrown (World.leave_grows ..).contextCount)
      have hinside := ihb hbody w₁ hc₁
      rw [World.context_enter hv] at hinside
      have hrest := ihn b.ending (hnext b.ending) w₂ hc₂
      rw [hafter] at hrest
      exact ⟨rfl, hclosing, hinside, hrest⟩
    · exact hfailed _ _ (World.enter_of_error hv) rfl
    · exact hfailed _ _ (World.enter_of_panic hv) rfl

/-- A program of synchronous calls of one context, in which nothing is pushed or popped by hand, gets to
its ending, and the log gets the trace of its calls: a bracket for each one that began, at the depth that
its nesting gives it, with the panic told before the end of exactly those that were left by one, and
what was visible at its beginning at the end. Of a call whose resolution failed it gets the failure. -/
theorem audited (x : Executor) (p : Program) (c : Nat)
    (hp : p.Uses (·.stacked? ≠ some c) (·.context = c)) (m : Machine) (hm : m.work = p.work)
    (hc : c < m.world.contextCount) :
    let s := p.story x m.world
    ∃ n e w log, m.run x n = { m with work := .done e, world := w } ∧
      w.lines = m.world.lines ++ log ∧
      (log.map Line.notice).filter Notice.audits = s.audit ∧
      s.Nested (m.world.context c).depth ∧
      ∀ k, .frameGone k ∉ log.map Line.notice := by
  intro s
  obtain ⟨n, hrun, -⟩ := p.reaches x m hm
  have hnested : s.Nested (m.world.context c).depth := p.story_nested x hp m.world hc
  have haudit := hnested.audit_lines (p.story_sound x m.world) m.world.spansOn m.world.scene
  refine ⟨n, _, _, _, hrun, p.eval_lines x m.world, haudit, hnested, fun k hk => ?_⟩
  have hmem : .frameGone k ∈ s.audit := haudit ▸ List.mem_filter.2 ⟨hk, rfl⟩
  exact s.frameGone_not_mem_audit k hmem

/-- The system has no name, which is passed over; then a call panics inside another, which catches it. -/
def caught : Program :=
  .call ⟨0, .system⟩ (.done (.ok .null)) fun _ =>
  .call ⟨0, .anonymous⟩
    (.call ⟨0, .anonymous⟩ (.act (.put 0 none) fun _ => .done (.panic "inside")) fun _ =>
      .done (.ok .null))
    .done

theorem audited_caught :
    let x := Executor.ofConfig .default
    let m := Machine.start caught.work (.bare .empty)
    ∃ n e w log, m.run x n = { m with work := .done e, world := w } ∧
      w.lines = m.world.lines ++ log ∧
      (log.map Line.notice).filter Notice.audits =
        [.resolutionFailed (.noSystemPrincipal x.config.systemKey), .installed 1, .installed 2,
          .unwinding, .restored (some "anonymousUser") 1, .restored none 0] := by
  intro x m
  have hp : caught.Uses (·.stacked? ≠ some 0) (·.context = 0) :=
    ⟨rfl, trivial, fun _ => ⟨rfl, ⟨rfl, ⟨nofun, fun _ => trivial⟩, fun _ => trivial⟩, fun _ => trivial⟩⟩
  obtain ⟨n, e, w, log, hrun, hlines, haudit, -⟩ := audited x caught 0 hp m rfl (by decide)
  exact ⟨n, e, w, log, hrun, hlines, haudit.trans (by decide)⟩

end Program
end Guise

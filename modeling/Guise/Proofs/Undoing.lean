import Guise.Proofs.Numbering
import Guise.Proofs.Resolving
import Guise.Proofs.Restoring

/-!
# Undoing a `become`

A `become` writes to the slot that shows and tells what was there. A program that pushes and pops nothing
by hand leaves the same slot on top, so to put the value back afterwards makes base and frames what they
were (`Context.Rewritten.put_back`). Inside a call the slot is that of a frame no older than the call's own,
and it goes with the call: as long as the frame of the call stands, no write reaches what was under it
(`Context.Leads.spared`), and the step that takes the frame away writes nothing (`Turn.keeps_or_pops`).
-/

namespace Guise

namespace Context
variable {y z : Context} {t : Option Token}

/-- To put back what showed before some writes undoes all of them. -/
theorem Rewritten.put_back (h : Rewritten y z) : z.put y.visible = { y with next := z.next } := by
  obtain ⟨u, n, rfl⟩ := h
  obtain ⟨b, fs, m⟩ := y
  cases fs <;> rfl

/-- The base and those frames of an earlier state that are still there are as they were, under frames
that were pushed since. -/
structure Spared (y z : Context) : Prop where
  base : z.base = y.base
  frames : ∃ above, z.frames = above ++ y.frames.filter (·.number ∈ z.numbers) ∧
    ∀ f ∈ above, y.next ≤ f.number

namespace Spared

/-- A context that has the numbers it had has the frames it had. -/
theorem frames_eq (h : Spared y z) (hn : z.numbers = y.numbers) : z.frames = y.frames := by
  obtain ⟨above, hz, -⟩ := h.frames
  have hall : y.frames.filter (·.number ∈ z.numbers) = y.frames :=
    List.filter_eq_self.2 fun f hf => decide_eq_true (hn ▸ List.mem_map.2 ⟨f, hf, rfl⟩)
  have hlength : z.frames.length = y.frames.length := by
    simpa [numbers] using congrArg List.length hn
  rw [hall] at hz
  have hnone : above = [] := by
    rw [hz, List.length_append] at hlength
    exact List.length_eq_zero_iff.1 (by omega)
  rw [hz, hnone, List.nil_append]

theorem popAll (h : Spared y z) (hz : z.WellNumbered) (ns : List Nat) : Spared y (z.popAll ns) := by
  obtain ⟨above, habove, hnew⟩ := h.frames
  refine ⟨?_, above.filter (·.number ∉ ns), ?_, fun f hf => hnew f (List.mem_filter.1 hf).1⟩
  · rw [hz.popAll_eq]
    exact h.base
  · rw [hz.numbers_popAll, hz.popAll_eq]
    show z.frames.filter _ = _
    rw [habove, List.filter_append, List.filter_filter]
    congr 1
    exact List.filter_congr fun f _ => by simp [and_comm]

theorem push (h : Spared y z) (hy : y.WellNumbered) (hle : y.next ≤ z.next) (u : Option Token) :
    Spared y (z.push u).2 := by
  obtain ⟨above, habove, hnew⟩ := h.frames
  refine ⟨h.base, ⟨z.next, u⟩ :: above, ?_, ?_⟩
  · -- the number of the new frame is that of no frame of `y`
    have hsame : y.frames.filter (·.number ∈ (z.push u).2.numbers) =
        y.frames.filter (·.number ∈ z.numbers) := by
      refine List.filter_congr fun f hf => ?_
      have hlt := hy.below f.number (List.mem_map.2 ⟨f, hf, rfl⟩)
      have hne : f.number ≠ z.next := by omega
      simp [hne]
    rw [hsame, List.cons_append, ← habove]
    rfl
  · intro f hf
    rcases List.mem_cons.1 hf with rfl | hf
    · exact hle
    · exact hnew f hf

/-- A write lands in the topmost frame, which was pushed since if any of those frames is there. -/
theorem put (h : Spared y z) (hy : y.WellNumbered) (hin : y.next ∈ z.numbers) (u : Option Token) :
    Spared y (z.put u) := by
  obtain ⟨above, habove, hnew⟩ := h.frames
  have hne : above ≠ [] := by
    rintro rfl
    rw [numbers, habove] at hin
    obtain ⟨f, hf, hfn⟩ := List.mem_map.1 hin
    have hlt := hy.below f.number (List.mem_map.2 ⟨f, (List.mem_filter.1 hf).1, rfl⟩)
    omega
  obtain ⟨hbase, above', habove', hnumbers⟩ := put_above (t := u) habove hne
  refine ⟨hbase.trans h.base, above', by rw [put_numbers, habove'], fun f hf => ?_⟩
  have hf' : f.number ∈ above.map (·.number) := hnumbers ▸ List.mem_map.2 ⟨f, hf, rfl⟩
  obtain ⟨g, hg, hgf⟩ := List.mem_map.1 hf'
  exact hgf ▸ hnew g hg

end Spared

/-- While a frame stands, what was under it is spared whatever is done to the context. -/
theorem Leads.spared (hr : y.Reachable) (h : Leads (y.push t).2 z) (hin : y.next ∈ z.numbers) :
    Spared y z := by
  have hy := hr.wellNumbered
  induction h with
  | refl =>
    have hall : y.frames.filter (·.number ∈ (y.push t).2.numbers) = y.frames :=
      List.filter_eq_self.2 fun f hf => decide_eq_true
        (List.mem_cons_of_mem _ (List.mem_map.2 ⟨f, hf, rfl⟩))
    refine ⟨rfl, [⟨y.next, t⟩], ?_, by simp⟩
    rw [hall]
    rfl
  | @put z u _ ih =>
    rw [put_numbers] at hin
    exact (ih hin).put hy hin u
  | @push z u hz ih =>
    have hlt : y.next < z.next := hz.next_le
    refine (ih ?_).push hy (Nat.le_of_lt hlt) u
    rcases List.mem_cons.1 (numbers_push z u ▸ hin) with heq | hin
    · exact absurd heq (Nat.ne_of_lt hlt)
    · exact hin
  | @pop z n hz ih =>
    exact (ih ((pop_numbers_sublist z n).subset hin)).popAll (hz.reachable (.push t hr)).wellNumbered [n]

end Context

namespace Machine
variable {x : Executor} {m m' : Machine} {c : Nat}

/-- A step leaves a context the numbers that it has, or does nothing there but take frames away. -/
theorem Turn.keeps_or_pops (h : Turn x m m') (hc : c < m.world.contextCount) :
    (m.world.context c).numbers ⊆ (m'.world.context c).numbers ∨
      ∃ ns, m'.world.context c = (m.world.context c).popAll ns := by
  cases h with
  | operated op next _ _ hw =>
    have hch := Op.perform_change x m.world op c
    rw [← hw] at hch
    cases hch with
    | stays hy => exact .inr ⟨[], hy⟩
    | written t _ hy => exact .inl (by rw [hy, Context.put_numbers]; exact List.Subset.refl _)
    | pushed t _ hy => exact .inl (by rw [hy, Context.numbers_push]; exact List.subset_cons_self ..)
    | popped n _ hy => exact .inr ⟨[n], hy⟩
    | made t hmade => exact absurd hmade (Nat.ne_of_gt hc)
  | installed i hi =>
    have hctx := hi.context c
    split at hctx
    · exact .inl (by rw [hctx, Context.numbers_push]; exact List.subset_cons_self ..)
    · exact .inr ⟨[], hctx⟩
  | begun t _ hb =>
    rcases hb.context c with hy | ⟨hmade, -⟩
    · exact .inr ⟨[], hy⟩
    · exact absurd hmade (Nat.ne_of_gt hc)
  | released gone _ hr => exact .inr ⟨_, hr.world.context c⟩

/-- However a call is suspended, and whatever else goes on in its context, the step that takes its frame
away brings back what the call found, but for frames that are gone by then. -/
theorem spared_of_exit {work body : Work} {w : World} {n k : Nat} {mode : Mode} {d : Call}
    {next : Ending → Work} {i : Identity} (hr : (w.context d.context).Reachable) :
    let m := (start work w).run x n
    let y := m.world.context d.context
    let z := fun l => ((start work w).run x (n + 1 + l)).world.context d.context
    m.work = .call mode d body next → (m.world.resolveCall x d.assumed).value = .ok i →
    d.context < m.world.contextCount → y.next ∈ (z k).numbers → y.next ∉ (z (k + 1)).numbers →
    y.Spared (z (k + 1)) := by
  intro m y z hm hi hc hin hout
  have hy : y.Reachable := run_reachable x work hr n
  have hz : (z k).Reachable := run_reachable x work hr (n + 1 + k)
  obtain ⟨a, w₁, hstep, -, -, hq⟩ := call_starts hm hi
  have hentry : z 0 = (y.push (some ⟨m.world.tokenCount, i⟩)).2 := by
    show ((start work w).run x (n + 1)).world.context d.context = _
    rw [run_succ', hstep, hq.context, World.context_pushed, if_pos rfl]
  obtain ⟨hleads, hck⟩ : (z 0).Leads (z k) ∧ _ := run_leads x work w (run_leads x work w hc 1).2 k
  rw [hentry] at hleads
  have hspared : y.Spared (z k) := hleads.spared hy hin
  rcases (run_turn x work w (n + 1 + k)).keeps_or_pops hck with hkeeps | ⟨ns, hpops⟩
  · exact absurd (hkeeps hin) hout
  · show y.Spared (((start work w).run x (n + 1 + k + 1)).world.context d.context)
    rw [hpops]
    exact hspared.popAll hz.wellNumbered ns

/-- A call whose work is a program, as it would be without suspensions, comes to its end, and base and
frames are then those at its entry. -/
theorem call_ends {mode : Mode} {d : Call} {body : Program} {next : Ending → Work} {i : Identity}
    (hm : m.work = .call mode d body.work next)
    (hi : (m.world.resolveCall x d.assumed).value = .ok i) (hc : d.context < m.world.contextCount)
    (hb : body.Scoped d.context) :
    ∃ j e w, m.run x j = { m with work := next e, world := w } ∧
      (w.context d.context).base = (m.world.context d.context).base ∧
      (w.context d.context).frames = (m.world.context d.context).frames := by
  obtain ⟨a, w₁, hstep, hhold, hnext, hq⟩ := call_starts (x := x) hm hi
  obtain ⟨k, hk, -⟩ := body.reaches x (m.step x) (by rw [hstep])
  rw [hstep] at hk
  let s := body.eval x w₁
  let w₂ := s.world.leave mode a s.ending.isPanic
  have hc₁ : d.context < w₁.contextCount := by rw [hq.contextCount]; exact hc
  have hw₁ : w₁.context d.context = ((m.world.context d.context).push (some ⟨m.world.tokenCount, i⟩)).2 := by
    rw [hq.context, World.context_pushed, if_pos rfl]
  have hre := body.eval_rewritten x hb w₁ hc₁
  rw [hw₁] at hre
  have hctx : w₂.context d.context =
      { m.world.context d.context with next := (s.world.context d.context).next } := by
    rw [(World.leave_quiet s.world mode a s.ending.isPanic).context, World.context_popped, hhold, if_pos rfl]
    exact congrArg Prod.snd hre.pop_push
  refine ⟨k + 2, s.ending, w₂, ?_, by rw [hctx], by rw [hctx]⟩
  rw [run_succ, run_succ', hstep, hk, ← hnext]
  rfl

/-- A `become` that resolves tells what showed, and puts a new token into the slot that shows and nothing
anywhere else. -/
theorem become_writes {p : String} {next : Outcome ResolutionError (Option Token) → Work} {i : Identity}
    (hm : m.work = .act (.become c p) next) (hi : (m.world.resolveCall x (.user p)).value = .ok i) :
    ∃ w, m.step x = { m with work := next (.ok (m.world.context c).visible), world := w } ∧
      w.contextCount = m.world.contextCount ∧
      ∀ d, w.context d = if c = d then (m.world.context d).put (some ⟨m.world.tokenCount, i⟩) else
        m.world.context d := by
  have h := become_passesOver (x := x) hm
  rw [hi] at h
  obtain ⟨w, hstep, hq⟩ := h
  refine ⟨w, hstep, hq.contextCount, fun d => ?_⟩
  rw [hq.context, World.context_setContext]
  split
  · rename_i hd; rw [hd]
  · rfl

/-- To put back what a `become` has told makes base and frames what they were, whatever program ran in
between. -/
theorem become_put_back {p : String} {next : Outcome ResolutionError (Option Token) → Work} {i : Identity}
    (hm : m.work = .act (.become c p) next) (hi : (m.world.resolveCall x (.user p)).value = .ok i)
    (hc : c < m.world.contextCount) {body : Program} (hb : body.Scoped c) {k : Ending → Option Token → Work}
    (hk : next (.ok (m.world.context c).visible) =
      body.before fun e => .act (.replace c (m.world.context c).visible) (k e)) :
    ∃ j e t w, (m.step x).run x j = { m with work := k e t, world := w } ∧
      (w.context c).base = (m.world.context c).base ∧
      (w.context c).frames = (m.world.context c).frames := by
  obtain ⟨w, hstep, hcount, hctx⟩ := become_writes hm hi
  have hw := hctx c
  rw [if_pos rfl] at hw
  obtain ⟨j, hj, -⟩ := body.reaches_before x _ (m.step x) (by rw [hstep]; exact hk)
  rw [hstep] at hj
  let s := body.eval x w
  have hre : (m.world.context c).Rewritten (s.world.context c) := by
    refine .trans (.put _ (some ⟨m.world.tokenCount, i⟩)) ?_
    rw [← hw]
    exact body.eval_rewritten x hb w (by rw [hcount]; exact hc)
  let w₁ := s.world.setContext c ((s.world.context c).put (m.world.context c).visible)
  have hw₁ : w₁.context c = { m.world.context c with next := (s.world.context c).next } := by
    rw [World.context_setContext, if_pos rfl, hre.put_back]
  refine ⟨j + 1, s.ending, (s.world.context c).visible, w₁, ?_, by rw [hw₁], by rw [hw₁]⟩
  rw [run_succ', hstep, hj]
  rfl

/-- A `become` can be undone exactly. It writes to the slot that shows and to no other, and hands out no
number; and to put back what it told, after any program that pushes and pops nothing by hand, makes base
and frames what they were. Inside a call it is undone by the end of the call: such a program is in any
call followed by the base and the frames that the call found, and also when the call is suspended and
others act on its context meanwhile, the step that takes its frame away leaves of what it found nothing
rewritten. -/
theorem become_undone (x : Executor) :
    (∀ (m : Machine) c p next i, m.work = .act (.become c p) next →
      (m.world.resolveCall x (.user p)).value = .ok i →
      let y := m.world.context c
      let z := (m.step x).world.context c
      (m.step x).work = next (.ok y.visible) ∧
      (z.visible = some ⟨m.world.tokenCount, i⟩ ∧ z.frames.tail = y.frames.tail ∧
        (y.frames ≠ [] → z.base = y.base) ∧ z.numbers = y.numbers ∧ z.next = y.next ∧
        ∀ d, d ≠ c → (m.step x).world.context d = m.world.context d) ∧
      ∀ (body : Program) (k : Ending → Option Token → Work), c < m.world.contextCount → body.Scoped c →
        next (.ok y.visible) = body.before (fun e => .act (.replace c y.visible) (k e)) →
        ∃ j e t w, (m.step x).run x j = { m with work := k e t, world := w } ∧
          (w.context c).base = y.base ∧ (w.context c).frames = y.frames) ∧
    (∀ (m : Machine) mode d (body : Program) next i, m.work = .call mode d body.work next →
      (m.world.resolveCall x d.assumed).value = .ok i → d.context < m.world.contextCount →
      body.Scoped d.context →
      ∃ j e w, m.run x j = { m with work := next e, world := w } ∧
        (w.context d.context).base = (m.world.context d.context).base ∧
        (w.context d.context).frames = (m.world.context d.context).frames) ∧
    (∀ work (w : World) n k mode (d : Call) body next i, (w.context d.context).Reachable →
      let m := (start work w).run x n
      let y := m.world.context d.context
      let z := fun l => ((start work w).run x (n + 1 + l)).world.context d.context
      m.work = .call mode d body next → (m.world.resolveCall x d.assumed).value = .ok i →
      d.context < m.world.contextCount → y.next ∈ (z k).numbers → y.next ∉ (z (k + 1)).numbers →
      y.Spared (z (k + 1)) ∧ ((z (k + 1)).numbers = y.numbers → (z (k + 1)).frames = y.frames)) := by
  refine ⟨?_, ?_, ?_⟩
  · intro m c p next i hm hi y z
    obtain ⟨w, hstep, -, hctx⟩ := become_writes hm hi
    have hz : z = y.put (some ⟨m.world.tokenCount, i⟩) := by
      show (m.step x).world.context c = _
      rw [hstep, hctx, if_pos rfl]
    refine ⟨by rw [hstep], ?_, fun body k hc hb hk => become_put_back hm hi hc hb hk⟩
    rw [hz]
    refine ⟨y.visible_put _, ?_, fun hne => ?_, y.put_numbers _, y.put_next _, fun d hd => ?_⟩
    · unfold Context.put
      split <;> simp [*]
    · obtain ⟨f, r, hf⟩ := List.exists_cons_of_ne_nil hne
      simp [Context.put, hf]
    · rw [hstep, hctx, if_neg (Ne.symm hd)]
  · intro m mode d body next i hm hi hc hb
    exact call_ends hm hi hc hb
  · intro work w n k mode d body next i hr m y z hm hi hc hin hout
    have hspared : y.Spared (z (k + 1)) := spared_of_exit hr hm hi hc hin hout
    exact ⟨hspared, hspared.frames_eq⟩

/-- Work that becomes a user, clears the context, becomes another in a call there, and puts back what showed
at first. -/
def becomesAndBack : Work :=
  .act (.become 0 "ann") fun
    | .ok previous =>
      .act (.put 0 none) fun _ => .call .sync ⟨0, .anonymous⟩
        (.act (.become 0 "bob") fun _ => .done (.panic "inside")) fun _ =>
      .act (.replace 0 previous) fun t => .act (.put 0 t) fun _ => .done (.ok .null)
    | _ => .done (.ok .null)

/-- A future that becomes a user in its call and is then suspended there. -/
def becomesAsleep : Work :=
  .future "task" (.call .async ⟨0, .anonymous⟩
    (.act (.become 0 "ann") fun _ => .yield (.done (.ok .null))) .done) <|
  .poll "task" fun _ => .poll "task" fun _ => .done (.ok .null)

theorem become_undone_andBack_asleep :
    let x := Executor.ofConfig .default
    let y := ((Context.ofToken (some ⟨0, x.anonymous⟩)).push (some ⟨1, x.anonymous⟩)).2
    let w := World.start y 2 (.ofStores .empty .empty) false
    let m := start becomesAndBack w
    (∃ j t w', (m.step x).run x j =
        { m with work := .act (.put 0 t) fun _ => .done (.ok .null), world := w' } ∧
      (w'.context 0).base = y.base ∧ (w'.context 0).frames = y.frames) ∧
    (((start becomesAsleep w).run x 6).world.context 0).frames ≠ y.frames ∧
    (((start becomesAsleep w).run x 7).world.context 0).frames = y.frames := by
  intro x y w m
  let body : Program := .act (.put 0 none) fun _ => .call ⟨0, .anonymous⟩
    (.act (.become 0 "bob") fun _ => .done (.panic "inside")) .done
  have hb : body.Scoped 0 := ⟨nofun, fun _ => ⟨trivial, ⟨nofun, fun _ => trivial⟩, fun _ => trivial⟩⟩
  have hr : (w.context 0).Reachable := .push _ (.new _)
  obtain ⟨hbecome, -, hexit⟩ := become_undone x
  obtain ⟨-, -, hundo⟩ := hbecome m 0 "ann" _ ⟨"ann", .empty, .user⟩ rfl rfl
  obtain ⟨j, e, t, w', hrun, hbase, hframes⟩ :=
    hundo body (fun _ t => .act (.put 0 t) fun _ => .done (.ok .null)) (by decide) hb rfl
  refine ⟨⟨j, t, w', hrun, hbase, hframes⟩, by decide, ?_⟩
  exact (hexit becomesAsleep w 2 3 _ ⟨0, .anonymous⟩ _ _ x.anonymous hr rfl rfl (by decide) (by decide)
    (by decide)).2 (by decide)

end Machine
end Guise

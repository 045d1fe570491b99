import Guise.Proofs.Layers

/-!
# The number of a frame is a handle for good

The counter of a context only goes up, so a number below it that no frame has will never be the number
of a frame again (`Leads.retired`): frames are given the number at the counter, and every other
operation takes frames away or leaves their numbers alone. A step of a machine does to a context what
a few such operations do (`Turn.leads`), whether work acts on it by hand, calls begin and end in it in
any order, or a future with calls in it is dropped.
-/

namespace Guise

namespace Context
variable {y z u : Context} {n : Nat}

/-- Operations lead from one state of a context to another. -/
inductive Leads (y : Context) : Context → Prop
  | refl : Leads y y
  | put {z : Context} (t : Option Token) : Leads y z → Leads y (z.put t)
  | push {z : Context} (t : Option Token) : Leads y z → Leads y (z.push t).2
  | pop {z : Context} (n : Nat) : Leads y z → Leads y (z.pop n).2

theorem pop_next (y : Context) (n : Nat) : (y.pop n).2.next = y.next := by
  unfold pop; split <;> rfl

theorem pop_base (y : Context) (n : Nat) : (y.pop n).2.base = y.base := by
  unfold pop; split <;> rfl

theorem pop_frames_sublist (y : Context) (n : Nat) : (y.pop n).2.frames.Sublist y.frames := by
  unfold pop
  split
  · exact List.eraseP_sublist
  · exact .refl _

theorem pop_numbers_sublist (y : Context) (n : Nat) : (y.pop n).2.numbers.Sublist y.numbers :=
  (pop_frames_sublist y n).map _

/-- Where no frame has a number, popping it changes nothing. -/
theorem pop_absent (h : n ∉ y.numbers) : y.pop n = (false, y) := by
  have hany : ¬ y.frames.any (·.number == n) = true := by
    intro ha
    obtain ⟨f, hf, hfn⟩ := List.any_eq_true.1 ha
    exact h (List.mem_map.2 ⟨f, hf, by simpa using hfn⟩)
  rw [pop, if_neg hany]

namespace Leads

theorem trans (h : Leads y z) (h' : Leads z u) : Leads y u := by
  induction h' with
  | refl => exact h
  | put t _ ih => exact ih.put t
  | push t _ ih => exact ih.push t
  | pop n _ ih => exact ih.pop n

theorem reachable (h : Leads y z) (hy : y.Reachable) : z.Reachable := by
  induction h with
  | refl => exact hy
  | put t _ ih => exact ih.put t
  | push t _ ih => exact ih.push t
  | pop n _ ih => exact ih.pop n

theorem popAll (y : Context) (ns : List Nat) : Leads y (y.popAll ns) := by
  induction ns generalizing y with
  | nil => exact .refl
  | cons n ns ih => exact trans (.pop n .refl) (ih _)

theorem next_le (h : Leads y z) : y.next ≤ z.next := by
  induction h with
  | refl => exact Nat.le_refl _
  | put t _ ih => rw [put_next]; exact ih
  | push t _ ih => exact Nat.le_succ_of_le ih
  | pop n _ ih => rw [pop_next]; exact ih

/-- A number that was handed out and stands on no frame stays so. -/
theorem retired (h : Leads y z) (hn : n < y.next) (hout : n ∉ y.numbers) : n ∉ z.numbers := by
  induction h with
  | refl => exact hout
  | put t _ ih => rw [put_numbers]; exact ih
  | @push z t hz ih =>
    rw [numbers_push, List.mem_cons]
    rintro (rfl | hmem)
    · exact Nat.lt_irrefl _ (Nat.lt_of_lt_of_le hn hz.next_le)
    · exact ih hmem
  | pop k _ ih => exact fun hmem => ih ((pop_numbers_sublist _ k).subset hmem)

end Leads

/-- A number that has been popped names no frame any more. -/
theorem WellNumbered.not_mem_pop (h : y.WellNumbered) (n : Nat) : n ∉ (y.pop n).2.numbers := by
  rw [h.numbers_pop]
  intro hmem
  simpa using (List.mem_filter.1 hmem).2

/-- Popping the number of a frame takes out that frame, wherever it stands. -/
theorem WellNumbered.frames_pop (h : y.WellNumbered) {above below : List Frame} {f : Frame}
    (hy : y.frames = above ++ f :: below) : (y.pop f.number).2.frames = above ++ below := by
  have hnodup : (above.map (·.number) ++ f.number :: below.map (·.number)).Nodup := by
    have := h.nodup
    rwa [numbers, hy, List.map_append, List.map_cons] at this
  obtain ⟨-, hbelow, hdis⟩ := List.nodup_append.1 hnodup
  have ha : above.filter (·.number ≠ f.number) = above := by
    refine List.filter_eq_self.2 fun g hg => decide_eq_true fun hgf => ?_
    exact hdis g.number (List.mem_map.2 ⟨g, hg, rfl⟩) f.number (List.mem_cons_self ..) hgf
  have hb : below.filter (·.number ≠ f.number) = below := by
    refine List.filter_eq_self.2 fun g hg => decide_eq_true fun hgf => ?_
    exact (List.nodup_cons.1 hbelow).1 (List.mem_map.2 ⟨g, hg, hgf⟩)
  rw [h.pop_eq, hy]
  simp only [List.filter_append, ha]
  rw [List.filter_cons_of_neg (by simp), hb]

end Context

namespace Machine
variable {x : Executor} {m m' : Machine} {c : Nat}

/-- A step does operations to a context, or makes it. -/
theorem Turn.leads_or_made (h : Turn x m m') (c : Nat) :
    (m.world.context c).Leads (m'.world.context c) ∨
      m.world.contextCount = c ∧ ∃ t, m'.world.context c = .ofToken t := by
  cases h with
  | operated op next _ _ hw =>
    have hch := Op.perform_change x m.world op c
    rw [← hw] at hch
    cases hch with
    | stays hy => exact .inl (hy ▸ .refl)
    | written t _ hy => exact .inl (hy ▸ .put t .refl)
    | pushed t _ hy => exact .inl (hy ▸ .push t .refl)
    | popped n _ hy => exact .inl (hy ▸ .pop n .refl)
    | made t hc hy => exact .inr ⟨hc, t, hy⟩
  | installed i hi =>
    have hctx := hi.context c
    split at hctx
    · exact .inl (hctx ▸ .push _ .refl)
    · exact .inl (hctx ▸ .refl)
  | begun t _ hb =>
    rcases hb.context c with hy | hmade
    · exact .inl (hy ▸ .refl)
    · exact .inr hmade
  | released gone _ hr => exact .inl (hr.world.context c ▸ .popAll _ _)

theorem Turn.leads (h : Turn x m m') (hc : c < m.world.contextCount) :
    (m.world.context c).Leads (m'.world.context c) := by
  rcases h.leads_or_made c with h | ⟨hcount, -⟩
  · exact h
  · omega

theorem Turn.reachable (h : Turn x m m') (hr : (m.world.context c).Reachable) :
    (m'.world.context c).Reachable := by
  rcases h.leads_or_made c with h | ⟨-, t, hy⟩
  · exact h.reachable hr
  · exact hy ▸ .new t

theorem run_reachable (x : Executor) (work : Work) {w : World} (hr : (w.context c).Reachable)
    (n : Nat) : (((start work w).run x n).world.context c).Reachable := by
  induction n with
  | zero => exact hr
  | succ n ih => exact (run_turn x work w n).reachable ih

theorem run_leads (x : Executor) (work : Work) (w : World) {n : Nat}
    (hc : c < ((start work w).run x n).world.contextCount) (k : Nat) :
    (((start work w).run x n).world.context c).Leads
        (((start work w).run x (n + k)).world.context c) ∧
      c < ((start work w).run x (n + k)).world.contextCount := by
  induction k with
  | zero => exact ⟨.refl, hc⟩
  | succ k ih =>
    have ht := run_turn x work w (n + k)
    exact ⟨ih.1.trans (ht.leads ih.2), Nat.lt_of_lt_of_le ih.2 ht.grows.1⟩

/-- At every moment of a run the frames of a context are numbered upwards from the bottom, all below
the number that comes next. So a pop tells whether a frame has the number, takes out that frame and
nothing else, and a number that stands on no frame after it was handed out, as one that has been
popped, does nothing at any later moment. -/
theorem handles_stay_retired (x : Executor) (work : Work) (w : World) (c n : Nat)
    (hr : (w.context c).Reachable) :
    let m := (start work w).run x n
    let y := m.world.context c
    (y.frames.reverse.map (·.number)).Pairwise (· < ·) ∧
    (∀ f ∈ y.frames, f.number < y.next) ∧
    (∀ number, ((y.pop number).1 = true ↔ ∃ f ∈ y.frames, f.number = number) ∧
      ((y.pop number).1 = false → (y.pop number).2 = y) ∧
      (y.pop number).2.base = y.base ∧ (y.pop number).2.next = y.next ∧
      ∀ above f below, y.frames = above ++ f :: below → f.number = number →
        (y.pop number).2.frames = above ++ below) ∧
    (c < m.world.contextCount →
      (∀ number, number < y.next → number ∉ y.numbers → ∀ k,
        let z := ((start work w).run x (n + k)).world.context c
        z.pop number = (false, z)) ∧
      (∀ number next, m.work = .act (.pop c number) next → (y.pop number).1 = true → ∀ k,
        let z := ((start work w).run x (n + 1 + k)).world.context c
        z.pop number = (false, z))) := by
  intro m y
  have hy : y.WellNumbered := (run_reachable x work hr n).wellNumbered
  have hiff : ∀ number, (y.pop number).1 = true ↔ number ∈ y.numbers := by
    intro number
    rw [hy.pop_eq]
    simp
  refine ⟨?_, fun f hf => hy.below _ (List.mem_map.2 ⟨f, hf, rfl⟩), fun number => ⟨?_, ?_, ?_, ?_, ?_⟩,
    fun hc => ⟨fun number hn hout k => ?_, fun number next hm htrue k => ?_⟩⟩
  · rw [List.map_reverse]
    exact List.pairwise_reverse.2 hy.descending
  · rw [hiff]
    exact List.mem_map
  · intro hfalse
    have hout : number ∉ y.numbers := by
      rw [← hiff, hfalse]
      exact Bool.false_ne_true
    rw [Context.pop_absent hout]
  · exact y.pop_base number
  · exact y.pop_next number
  · rintro above f below hframes rfl
    exact hy.frames_pop hframes
  · exact Context.pop_absent ((run_leads x work w hc k).1.retired hn hout)
  · have hstep : ((start work w).run x (n + 1)).world.context c = (y.pop number).2 := by
      rw [run_succ']
      show (m.step x).world.context c = _
      rw [step, hm]
      show (World.setContext m.world c _).context c = _
      rw [World.context_setContext, if_pos rfl]
    have hlt : number < y.next := hy.below _ ((hiff number).1 htrue)
    have hc₁ : c < ((start work w).run x (n + 1)).world.contextCount :=
      (run_leads x work w hc 1).2
    have hlater := (run_leads x work w hc₁ k).1
    rw [hstep] at hlater
    refine Context.pop_absent (hlater.retired ?_ (hy.not_mem_pop number))
    rw [Context.pop_next]
    exact hlt

/-- A frame pushed by hand, popped from under the frame of a future that is then dropped. -/
def poppedFromUnder : Work :=
  .act (.push 0 none) fun _ =>
  .future "task" (.call .async ⟨0, .anonymous⟩ (.yield (.done (.ok .null))) .done) <|
  .poll "task" fun _ => .act (.pop 0 0) fun _ => .drop "task" fun _ =>
  .act (.push 0 none) fun _ => .done (.ok .null)

theorem handles_stay_retired_poppedFromUnder :
    let x := Executor.ofConfig .default
    let m := (start poppedFromUnder (.bare .empty)).run x 5
    (m.world.context 0).numbers = [1, 0] ∧ ((m.world.context 0).pop 0).1 = true ∧
      ∀ k, let z := ((start poppedFromUnder (.bare .empty)).run x (5 + 1 + k)).world.context 0
        z.pop 0 = (false, z) := by
  intro x m
  have hnumbers : (m.world.context 0).numbers = [1, 0] := by decide
  have htrue : ((m.world.context 0).pop 0).1 = true := by decide
  obtain ⟨-, -, -, h⟩ := handles_stay_retired x poppedFromUnder (.bare .empty) 0 5 (.new none)
  exact ⟨hnumbers, htrue, (h (by decide)).2 0 _ rfl htrue⟩

end Machine
end Guise

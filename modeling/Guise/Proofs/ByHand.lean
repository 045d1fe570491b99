import Guise.Proofs.Numbering

/-!
# Frames pushed and popped by hand

Work may push frames that it never pops, and pop any number at all, also that of a frame which it
found and that of the call it runs in. `Context.Worked` says what comes of a context in such work:
above the frames that were there and were not popped stand those that were pushed and not popped, in
the order of the pushes; and what lies under a frame that was not popped is as it was, because a write
reaches only the topmost slot. A call inside the work adds nothing to this: its own frame is neither
among those found nor among those pushed by hand, and it is gone after the call, by whichever hand.
-/

namespace Guise

/-- The number of the frame that was pushed by hand in a context. -/
def Event.pushed? (c : Nat) : Event → Option Nat
  | .answered (.push d _) n => if d = c then some n else none
  | _ => none

/-- The number of the frame that was there and was popped by hand from a context. -/
def Event.popped? (c : Nat) : Event → Option Nat
  | .answered (.pop d n) true => if d = c then some n else none
  | _ => none

/-- The frames pushed by hand in a context, in order. -/
def pushedIn (c : Nat) (es : List Event) : List Nat := es.filterMap (Event.pushed? c)

/-- The frames popped by hand from a context, in order. -/
def poppedIn (c : Nat) (es : List Event) : List Nat := es.filterMap (Event.popped? c)

theorem pushedIn_append (c : Nat) (es fs : List Event) :
    pushedIn c (es ++ fs) = pushedIn c es ++ pushedIn c fs := List.filterMap_append

theorem poppedIn_append (c : Nat) (es fs : List Event) :
    poppedIn c (es ++ fs) = poppedIn c es ++ poppedIn c fs := List.filterMap_append

theorem pushedIn_push (c : Nat) (t : Option Token) (n : Nat) :
    pushedIn c [.answered (.push c t) n] = [n] :=
  List.filterMap_cons_some (f := Event.pushed? c) (l := []) (if_pos rfl)

theorem poppedIn_pop (c n : Nat) (found : Bool) :
    poppedIn c [.answered (.pop c n) found] = if found then [n] else [] := by
  cases found with
  | false => rfl
  | true => exact List.filterMap_cons_some (f := Event.popped? c) (l := []) (if_pos rfl)

/-- Operations that push and pop nothing by hand in a context are in neither list. -/
theorem pushedIn_other {c : Nat} {op : Op} (h : op.stacked? ≠ some c) (a : op.Answer) :
    pushedIn c [.answered op a] = [] ∧ poppedIn c [.answered op a] = [] := by
  cases op with
  | push d t =>
    have hd : d ≠ c := fun hd => h (congrArg some hd)
    exact ⟨List.filterMap_cons_none (if_neg hd), rfl⟩
  | pop d n =>
    have hd : d ≠ c := fun hd => h (congrArg some hd)
    refine ⟨rfl, ?_⟩
    revert a
    show ∀ found : Bool, _
    intro found
    cases found with
    | false => rfl
    | true => exact List.filterMap_cons_none (if_neg hd)
  | _ => exact ⟨rfl, rfl⟩

namespace Context
variable {y z u : Context} {ins outs ins' outs' : List Nat} {n : Nat}

/-- What work makes of a context by pushing the frames numbered `ins` and popping those numbered
`outs`. -/
structure Worked (ins outs : List Nat) (y z : Context) : Prop where
  wellNumbered : z.WellNumbered
  next_le : y.next ≤ z.next
  fresh : ∀ n ∈ ins, y.next ≤ n
  issued : ∀ n ∈ outs, n < z.next
  numbers : z.numbers = (ins.filter (· ∉ outs)).reverse ++ y.numbers.filter (· ∉ outs)
  under : ∀ above f below, y.frames = above ++ f :: below → f.number ∉ outs →
    z.base = y.base ∧ ∃ above' f', f'.number = f.number ∧
      z.frames = above' ++ f' :: below.filter (·.number ∉ outs)

namespace Worked

theorem refl (hy : y.WellNumbered) : Worked [] [] y y := by
  refine ⟨hy, Nat.le_refl _, nofun, nofun, by simp, fun above f below hf _ => ?_⟩
  exact ⟨rfl, above, f, rfl, by simpa using hf⟩

theorem put (hy : y.WellNumbered) (t : Option Token) : Worked [] [] y (y.put t) := by
  refine ⟨hy.put t, by simp, nofun, nofun, by simp, fun above f below hf _ => ?_⟩
  cases above with
  | nil => exact ⟨by simp [Context.put, hf], [], { f with slot := t }, rfl, by simp [Context.put, hf]⟩
  | cons g above =>
    exact ⟨by simp [Context.put, hf], { g with slot := t } :: above, f, rfl, by simp [Context.put, hf]⟩

theorem push (hy : y.WellNumbered) (t : Option Token) : Worked [y.next] [] y (y.push t).2 := by
  refine ⟨hy.push t, Nat.le_succ _, by simp, nofun, by simp, fun above f below hf _ => ?_⟩
  exact ⟨rfl, ⟨y.next, t⟩ :: above, f, rfl, by simp [Context.push, hf]⟩

theorem pop (hy : y.WellNumbered) (hn : n ∈ y.numbers) : Worked [] [n] y (y.pop n).2 := by
  refine ⟨hy.pop n, Nat.le_of_eq (y.pop_next n).symm, nofun, fun k hk => ?_, ?_, fun above f below hf hout => ?_⟩
  · rw [List.mem_singleton.1 hk, pop_next]
    exact hy.below n hn
  · rw [hy.numbers_pop]
    simp
  · have hne : f.number ≠ n := by simpa using hout
    refine ⟨y.pop_base n, above.filter (·.number ≠ n), f, rfl, ?_⟩
    rw [hy.pop_eq, hf, List.filter_append, List.filter_cons_of_pos (by simpa using hne)]
    simp

theorem trans (h : Worked ins outs y z) (h' : Worked ins' outs' z u) :
    Worked (ins ++ ins') (outs ++ outs') y u := by
  have hlater : ∀ n ∈ ins', n ∉ outs := fun n hn hout =>
    absurd (h.issued n hout) (Nat.not_lt.2 (h'.fresh n hn))
  refine ⟨h'.wellNumbered, Nat.le_trans h.next_le h'.next_le, ?_, ?_, ?_, ?_⟩
  · intro n hn
    rcases List.mem_append.1 hn with hn | hn
    · exact h.fresh n hn
    · exact Nat.le_trans h.next_le (h'.fresh n hn)
  · intro n hn
    rcases List.mem_append.1 hn with hn | hn
    · exact Nat.lt_of_lt_of_le (h.issued n hn) h'.next_le
    · exact h'.issued n hn
  · -- what was pushed later was not popped earlier
    have hins : ins'.filter (· ∉ outs ++ outs') = ins'.filter (· ∉ outs') :=
      List.filter_congr fun n hn => by simp [hlater n hn]
    rw [h'.numbers, h.numbers, List.filter_append, List.filter_append, List.reverse_append, hins]
    simp [List.filter_reverse, List.filter_filter, Bool.and_comm]
  · intro above f below hf hout
    have hout₁ : f.number ∉ outs := fun hm => hout (List.mem_append_left _ hm)
    have hout₂ : f.number ∉ outs' := fun hm => hout (List.mem_append_right _ hm)
    obtain ⟨hbase, above₁, f₁, hf₁, hz⟩ := h.under above f below hf hout₁
    obtain ⟨hbase', above₂, f₂, hf₂, hu⟩ := h'.under above₁ f₁ _ hz (hf₁ ▸ hout₂)
    refine ⟨hbase'.trans hbase, above₂, f₂, hf₂.trans hf₁, ?_⟩
    rw [hu, List.filter_filter]
    simp [Bool.and_comm]

/-- A frame that was given away before the work and is popped after it is in no account of the work. -/
theorem call {t : Option Token} (hy : y.WellNumbered) (h : Worked ins outs (y.push t).2 z) :
    Worked ins outs y (z.pop y.next).2 := by
  have hnew : ∀ n ∈ y.numbers, n ≠ y.next := fun n hn => Nat.ne_of_lt (hy.below n hn)
  have hins : ∀ n ∈ ins, n ≠ y.next := fun n hn => Nat.ne_of_gt (h.fresh n hn)
  refine ⟨h.wellNumbered.pop _, ?_, fun n hn => Nat.le_of_lt (h.fresh n hn), ?_, ?_, ?_⟩
  · rw [pop_next]
    exact Nat.le_trans (Nat.le_succ _) h.next_le
  · intro n hn
    rw [pop_next]
    exact h.issued n hn
  · have hin : (ins.filter (· ∉ outs)).filter (· ≠ y.next) = ins.filter (· ∉ outs) :=
      List.filter_eq_self.2 fun n hn => decide_eq_true (hins n (List.mem_filter.1 hn).1)
    have hout : (y.numbers.filter (· ∉ outs)).filter (· ≠ y.next) = y.numbers.filter (· ∉ outs) :=
      List.filter_eq_self.2 fun n hn => decide_eq_true (hnew n (List.mem_filter.1 hn).1)
    rw [h.wellNumbered.numbers_pop, h.numbers, numbers_push, List.filter_append, List.filter_reverse,
      hin, List.filter_cons]
    split
    · rw [List.filter_cons_of_neg (by simp), hout]
    · rw [hout]
  · intro above f below hf hout
    obtain ⟨hbase, above₁, f₁, hf₁, hz⟩ :=
      h.under (⟨y.next, t⟩ :: above) f below (by simp [Context.push, hf]) hout
    refine ⟨(z.pop_base _).trans hbase, above₁.filter (·.number ≠ y.next), f₁, hf₁, ?_⟩
    have hkept : ∀ g ∈ f :: below, g.number ≠ y.next := fun g hg =>
      hnew _ (List.mem_map.2 ⟨g, by rw [hf]; exact List.mem_append_right _ hg, rfl⟩)
    have hbelow : (below.filter (·.number ∉ outs)).filter (·.number ≠ y.next) =
        below.filter (·.number ∉ outs) := List.filter_eq_self.2 fun g hg =>
      decide_eq_true (hkept g (List.mem_cons_of_mem _ (List.mem_filter.1 hg).1))
    have hf₁' : f₁.number ≠ y.next := hf₁ ▸ hkept f (List.mem_cons_self ..)
    rw [h.wellNumbered.pop_eq, hz, List.filter_append, List.filter_cons_of_pos (by simpa using hf₁'),
      hbelow]

theorem popped (h : Worked ins outs y z) (hn : n ∈ outs) : n ∉ z.numbers := by
  rw [h.numbers, List.mem_append, List.mem_reverse, List.mem_filter, List.mem_filter]
  rintro (⟨-, hout⟩ | ⟨-, hout⟩) <;> exact of_decide_eq_true hout hn

/-- What is left when the frame that was there before the work, and that the work did not pop, goes. -/
theorem left_of_call {t : Option Token} (hy : y.WellNumbered) (h : Worked ins outs (y.push t).2 z)
    (hown : y.next ∉ outs) : (z.pop y.next).2.base = y.base ∧
      ∃ left, (z.pop y.next).2.frames = left ++ y.frames.filter (·.number ∉ outs) ∧
        left.map (·.number) = (ins.filter (· ∉ outs)).reverse := by
  obtain ⟨hbase, left, own, hnumber, hz⟩ := h.under [] ⟨y.next, t⟩ y.frames rfl hown
  have hframes : (z.pop y.next).2.frames = left ++ y.frames.filter (·.number ∉ outs) := by
    rw [← show own.number = y.next from hnumber]
    exact h.wellNumbered.frames_pop hz
  refine ⟨(z.pop_base _).trans hbase, left, hframes, ?_⟩
  have hnumbers := (h.call hy).numbers
  have hfound : (y.frames.filter (·.number ∉ outs)).map (·.number) = y.numbers.filter (· ∉ outs) := by
    simp [Context.numbers, List.filter_map, Function.comp_def]
  rw [Context.numbers, hframes, List.map_append, hfound] at hnumbers
  exact List.append_cancel_right hnumbers

end Worked
end Context

/-! ### Programs -/

/-- An operation does to a context what its event tells. -/
theorem Op.perform_worked (x : Executor) (w : World) (op : Op) {c : Nat} (hc : c < w.contextCount)
    (hw : (w.context c).WellNumbered) :
    Context.Worked (pushedIn c [.answered op (op.perform x w).1])
      (poppedIn c [.answered op (op.perform x w).1]) (w.context c) ((op.perform x w).2.context c) := by
  by_cases hs : op.stacked? = some c
  · cases op with
    | push d t =>
      obtain rfl : d = c := Option.some.inj hs
      have hctx : ((Op.push d t).perform x w).2.context d = ((w.context d).push t).2 := by
        simp [perform]
      rw [hctx]
      show Context.Worked (pushedIn d [.answered (.push d t) (w.context d).next]) [] _ _
      rw [pushedIn_push]
      exact .push hw t
    | pop d n =>
      obtain rfl : d = c := Option.some.inj hs
      have hctx : ((Op.pop d n).perform x w).2.context d = ((w.context d).pop n).2 := by
        simp [perform]
      rw [hctx]
      show Context.Worked [] (poppedIn d [.answered (.pop d n) ((w.context d).pop n).1]) _ _
      rw [poppedIn_pop]
      by_cases hn : n ∈ (w.context d).numbers
      · rw [if_pos (by simpa [hw.pop_eq] using hn)]
        exact .pop hw hn
      · rw [Context.pop_absent hn]
        exact .refl hw
    | _ => cases hs
  · obtain ⟨hpushed, hpopped⟩ := pushedIn_other hs (op.perform x w).1
    rw [hpushed, hpopped]
    cases Op.perform_change x w op c with
    | stays hy => rw [hy]; exact .refl hw
    | written t _ hy => rw [hy]; exact .put hw t
    | pushed t h => exact absurd h hs
    | popped n h => exact absurd h hs
    | made t hd => omega

/-- A program does to a context what its events tell, whatever calls are in it. -/
theorem Program.eval_worked (x : Executor) (p : Program) {w : World} {c : Nat}
    (hc : c < w.contextCount) (hw : (w.context c).WellNumbered) :
    Context.Worked (pushedIn c (p.eval x w).events) (poppedIn c (p.eval x w).events)
      (w.context c) ((p.eval x w).world.context c) := by
  induction p generalizing w with
  | done e => exact .refl hw
  | act op next ih =>
    have hop := op.perform_worked x w hc hw
    have hg := Op.perform_grows x w op
    have hnext := ih (op.perform x w).1 (Nat.lt_of_lt_of_le hc hg.contextCount) hop.wellNumbered
    have h := hop.trans hnext
    rw [← pushedIn_append, ← poppedIn_append] at h
    exact h
  | call d body next ihb ihn =>
    have hg := World.enter_grows x w d
    rcases World.enter_ok_or_failed x w d with ⟨hold, span, w₁, h⟩ | ⟨o, e, w₁, h, he⟩
    · obtain ⟨i, -, rfl, hq⟩ := World.enter_ok h
      rw [h] at hg
      let b := body.eval x w₁
      let a : Activation := ⟨⟨d.context, (w.context d.context).next⟩, span, fun e => (next e).work⟩
      let w₂ := b.world.leave .sync a b.ending.isPanic
      let s := (next b.ending).eval x w₂
      have hc₁ : c < w₁.contextCount := Nat.lt_of_lt_of_le hc hg.contextCount
      have hc₂ : c < w₂.contextCount := Nat.lt_of_lt_of_le hc₁
        (Nat.le_trans (body.eval_grows x w₁).contextCount (World.leave_grows ..).contextCount)
      have hw₁ := (hq.context c).trans (World.context_pushed w d.context i c)
      have hw₂ := ((World.leave_quiet b.world .sync a b.ending.isPanic).context c).trans
        (World.context_popped b.world a.hold c)
      -- the call's own frame goes on before its work and comes off after it
      have hcall : Context.Worked (pushedIn c b.events) (poppedIn c b.events) (w.context c)
          (w₂.context c) := by
        by_cases hd : d.context = c
        · rw [if_pos hd] at hw₁ hw₂
          have hb := ihb hc₁ (hw₁ ▸ hw.push _)
          rw [hw₁] at hb
          rw [hw₂]
          show Context.Worked _ _ _ ((b.world.context c).pop (w.context d.context).next).2
          rw [hd]
          exact hb.call hw
        · rw [if_neg hd] at hw₁ hw₂
          have hb := ihb hc₁ (hw₁ ▸ hw)
          rw [hw₁] at hb
          rw [hw₂]
          exact hb
      -- the ending of the call, which the work gets to know, is in neither list
      have hall : Context.Worked (pushedIn c (b.events ++ .ended b.ending :: s.events))
          (poppedIn c (b.events ++ .ended b.ending :: s.events)) (w.context c) (s.world.context c) := by
        rw [pushedIn_append, poppedIn_append]
        exact hcall.trans (ihn b.ending hc₂ hcall.wellNumbered)
      simpa [eval, h, b, w₂, a, s] using hall
    · obtain ⟨-, hq⟩ := World.enter_failed h he
      have hn := ihn e (hq.contextCount ▸ hc) (hq.context c ▸ hw)
      rw [hq.context c] at hn
      rw [eval_call_failed h he]
      exact hn

/-- A synchronous call takes its own frame off the context and no other, whatever its work pushes and
pops there by hand. When the work did not pop the call's own frame, the base is that at entry, and above
those frames found at entry that the work did not pop, each with what it showed, stand the frames that
the work pushed and did not pop, the latest on top. When the work did pop the call's own frame, leaving
the call changes no context. -/
theorem Machine.call_pops_own_frame (x : Executor) (m : Machine) (c : Call) (body : Program)
    (next : Ending → Work) (hm : m.work = .call .sync c body.work next)
    (hc : c.context < m.world.contextCount) (hr : (m.world.context c.context).Reachable) :
    let y := m.world.context c.context
    match (m.world.resolveCall x c.assumed).value with
    | .ok _ =>
      let s := body.eval x (m.step x).world
      let pushed := pushedIn c.context s.events
      let popped := poppedIn c.context s.events
      ∃ a k w, (m.step x).work = body.work ∧ (m.step x).stack = .running .sync a :: m.stack ∧
        a.hold = ⟨c.context, y.next⟩ ∧
        (m.step x).run x k = { m.step x with work := .done s.ending, world := s.world } ∧
        (m.step x).trace x k = s.events ∧
        m.run x (k + 2) = { m with work := next s.ending, world := w } ∧
        (∀ d, d ≠ c.context → w.context d = s.world.context d) ∧
        (a.hold.frame ∉ popped → (w.context c.context).base = y.base ∧
          ∃ left, (w.context c.context).frames = left ++ y.frames.filter (·.number ∉ popped) ∧
            left.map (·.number) = (pushed.filter (· ∉ popped)).reverse) ∧
        (a.hold.frame ∈ popped → w.context c.context = s.world.context c.context)
    | .error err => ∃ w, m.step x = { m with work := next (.error (.resolution err)), world := w } ∧
        ∀ d, w.context d = m.world.context d
    | .panic text => ∃ w, m.step x = { m with work := next (.panic text), world := w } ∧
        ∀ d, w.context d = m.world.context d := by
  intro y
  have hy : y.WellNumbered := hr.wellNumbered
  rcases h : m.world.enter x c with ⟨⟨hold, span⟩ | err | text, w₁⟩
  · obtain ⟨i, hv, rfl, hq⟩ := World.enter_ok h
    simp only [hv]
    have hstep := step_call_ok hm h
    have hworld : (m.step x).world = w₁ := by rw [hstep]
    rw [hworld]
    let s := body.eval x w₁
    let a : Activation := ⟨⟨c.context, y.next⟩, span, next⟩
    let w := s.world.leave .sync a s.ending.isPanic
    obtain ⟨k, hrun, htrace, hend⟩ := Program.reaches_call hm h
    have hw₁ : w₁.context c.context = (y.push (some ⟨m.world.tokenCount, i⟩)).2 := by
      rw [hq.context, World.context_pushed, if_pos rfl]
    have hw : ∀ d, w.context d = if c.context = d then ((s.world.context d).pop y.next).2 else
        s.world.context d := fun d =>
      ((World.leave_quiet s.world .sync a s.ending.isPanic).context d).trans (World.context_popped ..)
    -- the work starts with the call's own frame on top of what was there
    have hwork := body.eval_worked x (w := w₁) (by rw [hq.contextCount]; exact hc) (hw₁ ▸ hy.push _)
    rw [hw₁] at hwork
    refine ⟨a, k, w, by rw [hstep], by rw [hstep], rfl, hrun, htrace, hend, ?_, ?_, ?_⟩
    · intro d hd
      rw [hw d, if_neg (Ne.symm hd)]
    · intro hown
      rw [hw, if_pos rfl]
      exact hwork.left_of_call hy hown
    · intro hin
      rw [hw, if_pos rfl, Context.pop_absent (hwork.popped hin)]
  · obtain ⟨hv, hq⟩ := World.enter_error h
    simp only [hv]
    exact ⟨w₁, step_call_failed hm h rfl, hq.context⟩
  · obtain ⟨hv, hq⟩ := World.enter_panic h
    simp only [hv]
    exact ⟨w₁, step_call_failed hm h rfl, hq.context⟩

/-- Work that leaves a frame behind, takes away one that it found, and panics. -/
def leavesFrame : Program :=
  .act (.push 0 none) fun _ => .act (.pop 0 0) fun _ => .done (.panic "frame left")

theorem Machine.call_pops_own_frame_leavesFrame :
    let x := Executor.ofConfig .default
    let y := ((Context.ofToken none).push none).2
    let m := start (.call .sync ⟨0, .anonymous⟩ leavesFrame.work .done) (.bare y)
    ∃ k e w, m.run x (k + 2) = { m with work := .done e, world := w } ∧
      (w.context 0).base = none ∧ (w.context 0).numbers = [2] := by
  intro x y m
  have hpopped : poppedIn 0 (leavesFrame.eval x (m.step x).world).events = [0] := by decide
  have hpushed : pushedIn 0 (leavesFrame.eval x (m.step x).world).events = [2] := by decide
  obtain ⟨a, k, w, -, -, ha, -, -, hrun, -, hleft, -⟩ := call_pops_own_frame x m ⟨0, .anonymous⟩
    leavesFrame .done rfl (by decide) (.push none (.new none))
  have hframe : a.hold.frame = 1 := congrArg Hold.frame ha
  rw [hframe, hpopped, hpushed] at hleft
  obtain ⟨hbase, left, hframes, hnumbers⟩ := hleft (by decide)
  refine ⟨k, _, w, hrun, hbase, ?_⟩
  rw [Context.numbers, hframes, List.map_append, hnumbers]
  decide

end Guise

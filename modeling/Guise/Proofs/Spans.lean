import Guise.Proofs.Collaborators
import Guise.Proofs.Returning

/-!
# Spans

A thread is in the spans of the calls that are in progress in it, and in those that it was in at first:
`Spanned` says so of a machine, and every step preserves it, since a step enters and leaves the spans of
the levels that it puts up and takes down (`Shift.spanned`). So a thread that is back where it was is in
the same spans as before, and the current span is that of the innermost call in progress, wherever that
call was begun.

In the log of a program each line is under exactly the calls that are open there (`Tracked`).
-/

namespace Guise

namespace Level

def call? : Level → Option Activation
  | running _ a => some a
  | polling .. | waiting .. => none

theorem spans_eq (ls : List Level) : ls.flatMap spans = callSpans (ls.filterMap call?) := by
  induction ls with
  | nil => rfl
  | cons l ls ih =>
    cases l with
    | running mode a =>
      show a.span.toList ++ ls.flatMap spans = a.span.toList ++ callSpans (ls.filterMap call?)
      rw [ih]
    | polling | waiting => exact ih

end Level

namespace Machine
variable {x : Executor} {m m' : Machine} {w : World}

/-- The calls in progress in the running thread, the innermost first. -/
def calls (m : Machine) : List Activation := m.levels.filterMap Level.call?

/-- Every thread is in the spans of the calls in progress in it, and in those that it was in at first. A
thread that is not started was in none. -/
structure Spanned (w : World) (m : Machine) : Prop where
  lanes : ∀ l ∈ m.lanes, (m.world.thread l.thread).entered =
    l.levels.flatMap Level.spans ++ (w.thread l.thread).entered
  others : ∀ t, t ∉ m.crew → (m.world.thread t).entered = (w.thread t).entered
  unborn : ∀ t, m.world.threadCount ≤ t → (w.thread t).entered = []

/-- The running thread has more or less in progress, and nothing else has changed. -/
theorem Spanned.of_strung {r r' : List Level} {rest : List Lane} {s : Strand} (h : Spanned w m)
    (hc : m.Crewed) (hl : m.lanes = ⟨m.world.running, r⟩ :: rest)
    (hl' : m'.lanes = ⟨m.world.running, r'⟩ :: rest) (hw : m.world.Strung s m'.world)
    (hs : m.world.strand.entered = r.flatMap Level.spans ++ (w.thread m.world.running).entered →
      s.entered = r'.flatMap Level.spans ++ (w.thread m.world.running).entered) : Spanned w m' := by
  have hcrew : m'.crew = m.crew := by rw [crew, crew, hl, hl']; rfl
  have hnodup := hc.nodup
  rw [crew, hl] at hnodup
  have hne : ∀ l ∈ rest, m.world.running ≠ l.thread := fun l hmem heq =>
    (List.nodup_cons.1 hnodup).1 (List.mem_map.2 ⟨l, hmem, heq.symm⟩)
  refine ⟨fun l hmem => ?_, fun t ht => ?_, fun t ht => h.unborn t (hw.threadCount ▸ ht)⟩
  · rw [hl'] at hmem
    rcases List.mem_cons.1 hmem with rfl | hmem
    · have hold := h.lanes ⟨m.world.running, r⟩ (hl ▸ List.mem_cons_self ..)
      rw [hw.thread, if_pos rfl]
      exact hs hold
    · rw [hw.thread, if_neg (hne l hmem)]
      exact h.lanes l (hl ▸ List.mem_cons_of_mem _ hmem)
  · rw [hcrew] at ht
    have hself : m.world.running ≠ t := fun heq => ht (heq ▸ List.mem_cons_self ..)
    rw [hw.thread, if_neg hself]
    exact h.others t ht

/-- A thread begins, in no span; those that there were before are in the spans that they were in. -/
theorem Spanned.of_begun {s : Strand} {w₁ : World} {b : Option Nat} (h : Spanned w m) (hc : m.Crewed)
    (hl : m'.lanes = ⟨m.world.threadCount, []⟩ :: m.lanes) (hw : m.world.Strung s w₁)
    (hs : s.entered = m.world.strand.entered) (hm : m'.world = w₁.startThread ⟨b, []⟩) :
    Spanned w m' := by
  have hcrew : m'.crew = m.world.threadCount :: m.crew := by rw [crew, hl]; rfl
  have hkept : ∀ t, t ≠ m.world.threadCount →
      (m'.world.thread t).entered = (m.world.thread t).entered := by
    intro t ht
    rw [hm, World.thread_startThread, hw.threadCount, if_neg ht.symm, hw.thread]
    split
    · rename_i hr
      rw [hs, ← hr]
      rfl
    · rfl
  refine ⟨fun l hmem => ?_, fun t ht => ?_, fun t ht => h.unborn t ?_⟩
  · rw [hl] at hmem
    rcases List.mem_cons.1 hmem with rfl | hmem
    · rw [hm, World.thread_startThread, hw.threadCount, if_pos rfl, h.unborn _ (Nat.le_refl _)]
      rfl
    · have hstarted := hc.started l.thread (List.mem_map_of_mem hmem)
      rw [hkept _ (Nat.ne_of_lt hstarted)]
      exact h.lanes l hmem
  · rw [hcrew] at ht
    rw [hkept t (List.ne_of_not_mem_cons ht)]
    exact h.others t (List.not_mem_of_not_mem_cons ht)
  · rw [hm] at ht
    have hle : w₁.threadCount ≤ t := Nat.le_of_succ_le ht
    exact hw.threadCount ▸ hle

/-- Another thread runs, and those that have ended were back in what they were in at first. -/
theorem Spanned.of_switch {t : Nat} (h : Spanned w m) (hm : m'.world = m.world.switchTo t)
    (hl : ∀ l ∈ m'.lanes, l ∈ m.lanes)
    (hgone : ∀ u ∈ m.crew, u ∉ m'.crew → (m.world.thread u).entered = (w.thread u).entered) :
    Spanned w m' := by
  have hthread : ∀ u, m'.world.thread u = m.world.thread u := fun u => by rw [hm]; rfl
  refine ⟨fun l hmem => ?_, fun u hu => ?_, fun u hu => h.unborn u (by rw [hm] at hu; exact hu)⟩
  · rw [hthread]
    exact h.lanes l (hl l hmem)
  · rw [hthread]
    by_cases hold : u ∈ m.crew
    · exact hgone u hold hu
    · exact h.others u hold

theorem Shift.spanned (hs : Shift m m') (h : Spanned w m) (hc : m.Crewed) : Spanned w m' := by
  cases hs with
  | pushed ls r rest hl hl' hw =>
    refine h.of_strung hc hl hl' hw fun hold => ?_
    show ls.flatMap Level.spans ++ m.world.strand.entered = _
    rw [hold, List.flatMap_append, List.append_assoc]
  | popped calls l r rest hl hl' _ _ hw =>
    refine h.of_strung hc hl hl' hw fun hold => ?_
    have hsplit : calls.map (.running .async) ++ l :: r = calls.map (.running .async) ++ [l] ++ r := by
      simp
    rw [hsplit, List.flatMap_append, Level.spans_calls, List.append_assoc] at hold
    simp only [Strand.leave, hold, List.drop_left]
  | begun name inherits body next w₁ _ hl hw hm => exact h.of_begun hc hl hw rfl hm
  | ended t hl _ hm =>
    have hold := h.lanes ⟨m.world.running, []⟩ (hl ▸ List.mem_cons_self ..)
    refine h.of_switch hm (fun l hmem => hl ▸ List.mem_cons_of_mem _ hmem) fun u hu hgone => ?_
    rw [crew, hl] at hu
    obtain rfl : u = m.world.running := (List.mem_cons.1 hu).resolve_right hgone
    exact hold
  | passed t hl _ hm =>
    have hcrew := hl.map Lane.thread
    exact h.of_switch hm (fun l hmem => hl.mem_iff.2 hmem) fun u hu hgone =>
      absurd (hcrew.mem_iff.1 hu) hgone

theorem spanned_run (x : Executor) (work : Work) (hw : w.Manned) (n : Nat) :
    Spanned w ((start work w).run x n) := by
  induction n with
  | zero =>
    refine ⟨fun l hmem => ?_, fun _ _ => rfl, fun t ht => congrArg Strand.entered (hw.unborn t ht)⟩
    obtain rfl := List.mem_singleton.1 hmem
    rfl
  | succ n ih =>
    rw [run_succ']
    exact (step_shift x _).spanned ih (crewed_run x work hw n)

/-- The spans of the running thread are those of the calls in progress in it. -/
theorem Spanned.running (h : Spanned w m) :
    m.world.strand.entered = callSpans m.calls ++ (w.thread m.world.running).entered := by
  rw [calls, ← Level.spans_eq]
  exact h.lanes _ m.mem_lanes

theorem Shift.spansOn (hs : Shift m m') : m'.world.spansOn = m.world.spansOn := by
  cases hs with
  | pushed _ _ _ _ _ hw => exact hw.spansOn
  | popped _ _ _ _ _ _ _ _ hw => exact hw.spansOn
  | begun _ _ _ _ _ _ _ hw hm =>
    rw [hm]
    exact hw.spansOn
  | ended _ _ _ hm | passed _ _ _ hm =>
    rw [hm]
    rfl

theorem spansOn_run (x : Executor) (work : Work) (w : World) (n : Nat) :
    ((start work w).run x n).world.spansOn = w.spansOn := by
  induction n with
  | zero => rfl
  | succ n ih =>
    rw [run_succ', (step_shift x _).spansOn, ih]

/-- Dropping a future changes no thread. -/
theorem thread_dropFuture (m : Machine) (name : String) (t : Nat) :
    (m.dropFuture name).world.thread t = m.world.thread t := by
  rw [(strung_dropFuture m name).thread]
  split
  · rename_i h
    rw [← h]
    rfl
  · rfl

theorem thread_dropFutures (m : Machine) (t : Nat) :
    m.dropFutures.world.thread t = m.world.thread t := by
  unfold dropFutures
  generalize (m.futures.map (·.1)).foldr Text.place [] = names
  induction names generalizing m with
  | nil => rfl
  | cons name names ih => exact (ih _).trans (thread_dropFuture m name t)

/-- A call in progress in the running thread is underway. -/
theorem underway_of_mem_calls {a : Activation} (h : a ∈ m.calls) : ∃ mode, Underway mode a m := by
  have hstack : ∀ s : List Level, ∀ l ∈ (lanesIn s).1, l ∈ s := by
    intro s
    induction s with
    | nil => exact fun l hl => hl
    | cons k s ih =>
      intro l hl
      cases k with
      | waiting => cases hl
      | running | polling =>
        rcases List.mem_cons.1 hl with rfl | hl
        · exact List.mem_cons_self ..
        · exact List.mem_cons_of_mem _ (ih l hl)
  obtain ⟨l, hl, ha⟩ := List.mem_filterMap.1 h
  cases l with
  | running mode b =>
    cases ha
    exact ⟨mode, .stacked (hstack _ _ hl)⟩
  | polling | waiting => cases ha

end Machine

/-! ### Programs -/

/-- The scene inside more calls, the innermost first. -/
def Scene.under (s : Scene) (cs : List Caller) : Scene := ⟨cs ++ s.span, cs ++ s.entered⟩

/-- Whom the calls of a story were made as, in the order in which they began. -/
def Story.callers : Story → List Caller
  | done => []
  | told _ rest | refused _ rest => rest.callers
  | call v inside rest => v.caller :: (inside.callers ++ rest.callers)

/-- Each line of a log is under exactly the calls that are open there, from the line that says that a
call is installed to the line that says that it is restored. The callers yet to be installed are given
in order; at the end there are none, and none is open. -/
def Tracked (s : Scene) : List Caller → List Caller → List Line → Prop
  | ks, cs, [] => ks = [] ∧ cs = []
  | ks, cs, l :: r => match l.notice with
    | .installed _ => ∃ c ks', ks = c :: ks' ∧ l = (s.under (c :: cs)).line l.notice ∧
        Tracked s ks' (c :: cs) r
    | .restored .. | .frameGone _ => l = (s.under cs).line l.notice ∧ Tracked s ks cs.tail r
    | _ => l = (s.under cs).line l.notice ∧ Tracked s ks cs r

namespace Tracked
variable {s : Scene} {ks cs : List Caller} {c : Caller} {n : Notice} {r : List Line}

theorem told (hn : n.audits = n.fails) (h : Tracked s ks cs r) :
    Tracked s ks cs ((s.under cs).line n :: r) := by
  cases n <;> first | exact ⟨rfl, h⟩ | cases hn

theorem tolds {ns : List Notice} (hn : ∀ n ∈ ns, n.audits = n.fails) (h : Tracked s ks cs r) :
    Tracked s ks cs (ns.map (s.under cs).line ++ r) := by
  induction ns with
  | nil => exact h
  | cons n ns ih =>
    exact told (hn n (List.mem_cons_self ..)) (ih fun k hk => hn k (List.mem_cons_of_mem _ hk))

theorem closed (hn : n.closes = true) (h : Tracked s ks cs r) :
    Tracked s ks (c :: cs) ((s.under (c :: cs)).line n :: r) := by
  cases n <;> first | exact ⟨rfl, h⟩ | cases hn

theorem closings {v : Visit} (hv : v.closing.closes = true) (h : Tracked s ks cs r) :
    Tracked s ks (c :: cs) (v.closings.map (s.under (c :: cs)).line ++ r) := by
  unfold Visit.closings
  split
  · exact ⟨rfl, closed hv h⟩
  · exact closed hv h

end Tracked

theorem Story.Sound.tracked {st : Story} (h : st.Sound) (s : Scene) (ks cs : List Caller)
    {r : List Line} (hr : Tracked s ks cs r) :
    Tracked s (st.callers ++ ks) cs (st.lines true (s.under cs) ++ r) := by
  induction st generalizing ks cs r with
  | done => exact hr
  | told ns rest ih =>
    rw [lines, List.append_assoc]
    exact .tolds h.1 (ih h.2 ks cs hr)
  | refused cause rest ih => exact .told rfl (ih h ks cs hr)
  | call v inside rest ihi ihr =>
    obtain ⟨hclosing, hinside, hrest⟩ := h
    have hafter := ihi hinside _ (v.caller :: cs) (.closings hclosing (ihr hrest ks cs hr))
    have hscene : (s.under cs).push v.caller = s.under (v.caller :: cs) := rfl
    refine ⟨v.caller, inside.callers ++ (rest.callers ++ ks), ?_, rfl, ?_⟩
    · simp [callers]
    · simpa [hscene, List.append_assoc] using hafter

namespace Machine
variable {x : Executor} {work : Work} {w : World} {m : Machine} {n k : Nat}

theorem step_act_lines {op : Op} {next : op.Answer → Work} (x : Executor) (hm : m.work = .act op next) :
    (m.step x).world.lines = m.world.lines ++ (op.notices x m.world).map m.world.scene.line := by
  simp only [step, hm]
  exact op.perform_lines x m.world

theorem thread_step_dropping (x : Executor) (t : Nat) (hm : (∃ name next, m.work = .drop name next) ∨
    ∃ name body next, m.work = .future name body next) :
    (m.step x).world.thread t = m.world.thread t := by
  rcases hm with ⟨name, next, hm⟩ | ⟨name, body, next, hm⟩ <;> simp only [step, hm] <;>
    exact thread_dropFuture m name t

/-- Whoever runs with the same in progress as at another time is in the same spans. -/
theorem entered_of_levels (x : Executor) (work : Work) (hw : w.Manned) (n k : Nat)
    (hr : ((start work w).run x k).world.running = ((start work w).run x n).world.running)
    (hl : ((start work w).run x k).levels = ((start work w).run x n).levels) :
    ((start work w).run x k).world.strand.entered = ((start work w).run x n).world.strand.entered := by
  rw [(spanned_run x work hw k).running, (spanned_run x work hw n).running, calls, calls, hl, hr]

/-- The span that work runs in is the one that the innermost call around it was given when it began. -/
theorem innermost_span (hw : w.Manned) (hon : w.spansOn = true) {a : Activation}
    {rest : List Activation} (hcalls : ((start work w).run x n).calls = a :: rest) :
    ∃ k < n, ∃ mode i,
      let outer := ((start work w).run x k).world.currentSpan
      Begins x mode a i ((start work w).run x k) ∧
        a.span = some (⟨i.kind, i.principal⟩ :: outer) ∧
        ((start work w).run x n).world.scene.span = ⟨i.kind, i.principal⟩ :: outer := by
  obtain ⟨mode, hmode⟩ := underway_of_mem_calls (hcalls ▸ List.mem_cons_self ..)
  obtain ⟨k, hk, i, c, body, hwork, hvalue, ha⟩ := underway_origin hmode
  have hspan : a.span = some
      (⟨i.kind, i.principal⟩ :: ((start work w).run x k).world.currentSpan) := by
    rw [ha]
    show World.newSpan _ i = _
    unfold World.newSpan
    rw [spansOn_run, hon, if_pos rfl]
  refine ⟨k, hk, mode, i, ⟨c, body, hwork, hvalue, ha⟩, hspan, ?_⟩
  show ((start work w).run x n).world.strand.entered.headD [] = _
  rw [(spanned_run x work hw n).running, hcalls, callSpans, List.flatMap_cons, hspan]
  rfl

/-- What a program tells it tells under the spans of the calls that are open there. -/
theorem program_tracked (x : Executor) (p : Program) (hm : m.work = p.work)
    (hon : m.world.spansOn = true) :
    ∃ k e w',
      let s := p.story x m.world
      let log := s.lines true m.world.scene
      m.run x k = { m with work := .done e, world := w' } ∧ w'.lines = m.world.lines ++ log ∧
        Tracked m.world.scene s.callers [] log ∧ w'.scene = m.world.scene := by
  obtain ⟨k, hrun, -⟩ := p.reaches x m hm
  have hlines := p.eval_lines x m.world
  obtain ⟨b, hstrung⟩ := p.eval_strung x m.world
  have htracked := (p.story_sound x m.world).tracked m.world.scene [] [] (r := []) ⟨rfl, rfl⟩
  rw [hon] at hlines
  rw [List.append_nil, List.append_nil] at htracked
  exact ⟨k, _, _, hrun, hlines, htracked, hstrung.scene⟩

/-- Every thread is in the spans of the calls in progress in it, beside those that it was in at first. A
thread that is back from a synchronous call or from a poll is in the spans in which it made it, and
dropping futures changes the spans of nobody. What work tells it tells under the span of the innermost
call that it is in, which that call was given when it began, whichever thread runs and whatever was
polled meanwhile. And what a program tells it tells under the spans of exactly the calls that are open
there, which are those of the callers that it installed. -/
theorem spans_never_leak (x : Executor) (work : Work) (w : World) (n : Nat) (hw : w.Manned) :
    let m := (start work w).run x n
    (∀ l ∈ m.lanes, (m.world.thread l.thread).entered =
      l.levels.flatMap Level.spans ++ (w.thread l.thread).entered) ∧
    (∀ k, Back x m k →
      let m' := m.run x k
      (∀ c body next, m.work = .call .sync c body next →
        m'.world.running = m.world.running ∧ m'.levels = m.levels ∧ (∃ e, m'.work = next e) ∧
          m'.world.strand.entered = m.world.strand.entered) ∧
      (∀ name next, m.work = .poll name next →
        m'.world.running = m.world.running ∧ m'.levels = m.levels ∧ (∃ p, m'.work = next p) ∧
          m'.world.strand.entered = m.world.strand.entered)) ∧
    (∀ t, (m.dropFutures.world.thread t = m.world.thread t) ∧
      ((∃ name next, m.work = .drop name next) ∨ (∃ name body next, m.work = .future name body next) →
        (m.step x).world.thread t = m.world.thread t)) ∧
    (∀ op next, m.work = .act op next → (m.step x).world.lines =
      m.world.lines ++ (op.notices x m.world).map m.world.scene.line) ∧
    (∀ mode c body next, m.work = .call mode c body next → (m.step x).world.lines = m.world.lines ++
      ((m.world.resolveCall x c.assumed).notices.map m.world.scene.line ++
        match (m.world.resolveCall x c.assumed).value with
        | .ok i => [(m.world.callScene i).line (.installed ((m.world.context c.context).depth + 1))]
        | .error e => [m.world.scene.line (.resolutionFailed e)]
        | .panic _ => [])) ∧
    (w.spansOn = true → ∀ a rest, m.calls = a :: rest → ∃ k < n, ∃ mode i,
      let outer := ((start work w).run x k).world.currentSpan
      Begins x mode a i ((start work w).run x k) ∧
        a.span = some (⟨i.kind, i.principal⟩ :: outer) ∧
        m.world.scene.span = ⟨i.kind, i.principal⟩ :: outer) ∧
    (w.spansOn = true → ∀ p : Program, m.work = p.work → ∃ k e w',
      let s := p.story x m.world
      let log := s.lines true m.world.scene
      m.run x k = { m with work := .done e, world := w' } ∧ w'.lines = m.world.lines ++ log ∧
        Tracked m.world.scene s.callers [] log ∧ w'.scene = m.world.scene) := by
  intro m
  have hrun : ∀ k, m.run x k = (start work w).run x (n + k) := fun k => (run_add x n k _).symm
  have hcrewed : ∀ k, (m.run x k).Crewed := fun k => hrun k ▸ crewed_run x work hw (n + k)
  have hentered : ∀ k, (m.run x k).world.running = m.world.running →
      (m.run x k).levels = m.levels → (m.run x k).world.strand.entered = m.world.strand.entered := by
    intro k
    rw [hrun]
    exact entered_of_levels x work hw n (n + k)
  refine ⟨(spanned_run x work hw n).lanes, fun k hk => ⟨?_, ?_⟩,
    fun t => ⟨thread_dropFutures m t, thread_step_dropping x t⟩, fun op next => step_act_lines x, ?_,
    fun hon a rest => innermost_span hw hon, fun hon p hm => ?_⟩
  · intro c body next hm
    obtain ⟨hr, hl, he⟩ := back_call hk hcrewed hm
    exact ⟨hr, hl, he, hentered k hr hl⟩
  · intro name next hm
    obtain ⟨hr, hl, hp⟩ := back_poll hk hcrewed hm
    exact ⟨hr, hl, hp, hentered k hr hl⟩
  · intro mode c body next hm
    simp only [step, hm, world_call]
    exact World.lines_enter x m.world c
  · exact program_tracked x p hm ((spansOn_run x work w n).trans hon)

/-- Two calls that are polled in turn; the first tells something after its second poll. -/
def inTurn : Machine :=
  let call (p : String) : Work := .call .async ⟨0, .identity ⟨p, .empty, .user⟩⟩
    (.yield (.act (.resolve (.identity none "carl")) fun _ => .done (.ok .null))) .done
  start (.future "one" (call "ann") <| .future "two" (call "bob") <|
    .poll "one" fun _ => .poll "two" fun _ => .poll "one" fun _ => .done (.ok .null))
    (.start .empty 0 (.ofStores .empty .empty) true)

theorem spans_never_leak_inTurn :
    (inTurn.run (.ofConfig .default) 10).world.lines =
      (inTurn.run (.ofConfig .default) 9).world.lines ++
        [⟨.unknownPrincipal "carl", [⟨.user, "ann"⟩], [⟨.user, "ann"⟩]⟩] ∧
      ∃ k < 9, ∃ mode a i, Begins (.ofConfig .default) mode a i (inTurn.run (.ofConfig .default) k) ∧
        i.principal = "ann" := by
  obtain ⟨-, -, -, htold, -, hspan, -⟩ := spans_never_leak (.ofConfig .default) inTurn.work
    inTurn.world 9 (World.start_manned ..)
  have hwork : (inTurn.run (.ofConfig .default) 9).work =
      .act (.resolve (.identity none "carl")) fun _ => .done (.ok .null) := rfl
  have hscene : (inTurn.run (.ofConfig .default) 9).world.scene =
      ⟨[⟨.user, "ann"⟩], [⟨.user, "ann"⟩]⟩ := by decide
  obtain ⟨a, rest, hcalls⟩ : ∃ a rest, (inTurn.run (.ofConfig .default) 9).calls = a :: rest :=
    ⟨_, _, rfl⟩
  obtain ⟨k, hk, mode, i, hbegins, -, hunder⟩ := hspan rfl a rest hcalls
  constructor
  · have hlines := htold _ _ hwork
    rw [run_succ']
    exact hlines
  · have hfirst := (congrArg Scene.span hscene).symm.trans hunder
    exact ⟨k, hk, mode, a, i, hbegins, (congrArg Caller.principal (List.cons.inj hfirst).1).symm⟩

end Machine
end Guise

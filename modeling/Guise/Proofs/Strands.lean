import Guise.Proofs.Turns

/-!
# What is done to threads

A binding and the spans entered belong to one thread, and only the running thread can change its own.
`World.Strung w s w'`: in `w'` the running thread has the strand `s`, and every other thread has the
one that it has in `w`. Each function of a world is one such change: spans are entered on top and left
from the top (`Strand.enter`, `Strand.leave`), three operations change the binding, and everything else
leaves all strands alone.
-/

namespace Guise

namespace Strand
variable {s : Strand} {spans spans' : List Span}

/-- The strand inside more spans, the latest first. -/
def enter (s : Strand) (spans : List Span) : Strand := { s with entered := spans ++ s.entered }

/-- The strand after it has left as many spans as these. -/
def leave (s : Strand) (spans : List Span) : Strand :=
  { s with entered := s.entered.drop spans.length }

theorem enter_append : s.enter (spans ++ spans') = (s.enter spans').enter spans := by
  simp [enter]

theorem leave_append : s.leave (spans ++ spans') = (s.leave spans).leave spans' := by
  simp [leave]

@[simp] theorem leave_enter : (s.enter spans).leave spans = s := by
  simp [enter, leave]

end Strand

/-- The spans of calls, the innermost first. -/
def callSpans (calls : List Activation) : List Span := calls.flatMap (·.span.toList)

namespace World

structure Strung (w : World) (s : Strand) (w' : World) : Prop where
  thread : ∀ t, w'.thread t = if w.running = t then s else w.thread t
  threadCount : w'.threadCount = w.threadCount
  running : w'.running = w.running
  spansOn : w'.spansOn = w.spansOn

namespace Strung
variable {w w' w₁ : World} {s s' : Strand}

theorem of_threads (ht : w'.threads = w.threads) (hc : w'.threadCount = w.threadCount)
    (hr : w'.running = w.running) (hs : w'.spansOn = w.spansOn) : w.Strung w.strand w' := by
  refine ⟨fun t => ?_, hc, hr, hs⟩
  have hsame : w'.thread t = w.thread t := by unfold World.thread; rw [ht]
  split
  · rename_i h
    rw [hsame, ← h]
    rfl
  · exact hsame

theorem refl (w : World) : w.Strung w.strand w := .of_threads rfl rfl rfl rfl

theorem strand (h : w.Strung s w') : w'.strand = s := by
  unfold World.strand
  rw [h.thread, h.running, if_pos rfl]

theorem trans (h : w.Strung s w₁) (h' : w₁.Strung s' w') : w.Strung s' w' := by
  refine ⟨fun t => ?_, h'.threadCount.trans h.threadCount, h'.running.trans h.running,
    h'.spansOn.trans h.spansOn⟩
  rw [h'.thread, h.running, h.thread]
  split <;> rfl

/-- What leaves all strands alone makes no difference before another change, or after it. -/
theorem after (h : w.Strung w.strand w₁) (f : Strand → Strand) (h' : w₁.Strung (f w₁.strand) w') :
    w.Strung (f w.strand) w' := by
  rw [h.strand] at h'
  exact h.trans h'

theorem still (h : w.Strung s w₁) (h' : w₁.Strung w₁.strand w') : w.Strung s w' := by
  rw [h.strand] at h'
  exact h.trans h'

theorem setStrand (w : World) (s : Strand) : w.Strung s (w.setStrand s) :=
  ⟨fun t => by rw [World.setStrand, thread_setThread], rfl, rfl, rfl⟩

/-! ### The log, contexts and the observer -/

theorem write (w : World) (e : Entry) : w.Strung w.strand (w.write e) := .of_threads rfl rfl rfl rfl

theorem tell (w : World) (n : Notice) : w.Strung w.strand (w.tell n) := .write w _

theorem record (w : World) (signs : List Sign) : w.Strung w.strand (w.record signs) := by
  induction signs generalizing w with
  | nil => exact .refl w
  | cons s signs ih =>
    cases s with
    | asked q => exact (write w (.asked q)).still (ih _)
    | told n => exact (tell w n).still (ih _)

theorem mint (w : World) (i : Identity) : w.Strung w.strand (w.mint i).2 :=
  .of_threads rfl rfl rfl rfl

theorem setContext (w : World) (c : Nat) (y : Context) : w.Strung w.strand (w.setContext c y) :=
  .of_threads rfl rfl rfl rfl

theorem addContext (w : World) (t : Option Token) : w.Strung w.strand (w.addContext t).2 :=
  .of_threads rfl rfl rfl rfl

theorem numberSlot (w : World) (t : Option Token) : w.Strung w.strand (w.numberSlot t).2 := by
  cases t with
  | none => exact .refl w
  | some t =>
    show w.Strung w.strand (w.number t).2
    unfold World.number
    split
    · exact .refl w
    · exact .of_threads rfl rfl rfl rfl

theorem survey (w : World) (cs : List Nat) : w.Strung w.strand (w.survey cs).2 := by
  induction cs generalizing w with
  | nil => exact .refl w
  | cons c cs ih => exact (numberSlot w _).still (ih _)

theorem note (w : World) (place verb : String) (r : Report) :
    w.Strung w.strand (w.note place verb r) :=
  (survey w w.known).still (.write _ _)

theorem know (w : World) (c : Nat) : w.Strung w.strand (w.know c).2 := by
  unfold World.know
  split
  · exact .refl w
  · exact .of_threads rfl rfl rfl rfl

/-- An unbound thread is bound; a bound one stays so. -/
theorem bound (w : World) : w.Strung { w.strand with bound := some w.bound.1 } w.bound.2 := by
  have hset : ∀ w₁ : World, w.Strung w.strand w₁ → ∀ c,
      w.Strung { w.strand with bound := some c } (w₁.setStrand { w₁.strand with bound := some c }) :=
    fun w₁ h c => h.after ({ · with bound := some c }) (setStrand w₁ _)
  unfold World.bound
  split
  · rename_i c hc
    have hself : { w.strand with bound := some c } = w.strand := by rw [← hc]
    rw [hself]
    exact .refl w
  · exact hset _ (addContext w none) _

end Strung

theorem thread_startThread (w : World) (s : Strand) (t : Nat) :
    (w.startThread s).thread t = if w.threadCount = t then s else w.thread t :=
  thread_setThread w w.threadCount t s

theorem strand_startThread (w : World) (s : Strand) : (w.startThread s).strand = s := by
  unfold strand
  rw [thread_startThread]
  exact if_pos rfl

/-! ### Spans -/

namespace Strung
variable {w w' w₁ : World}

theorem enterSpan (w : World) (span : Option Span) :
    w.Strung (w.strand.enter span.toList) (w.enterSpan span) := by
  cases span with
  | none => exact .refl w
  | some s => exact .setStrand w _

theorem exitSpan (w : World) (span : Option Span) :
    w.Strung (w.strand.leave span.toList) (w.exitSpan span) := by
  cases span with
  | none => exact .refl w
  | some s =>
    have htail : w.strand.leave [s] = { w.strand with entered := w.strand.entered.tail } := by
      simp [Strand.leave]
    exact htail ▸ .setStrand w _

theorem install (w : World) (c : Nat) (i : Identity) :
    w.Strung (w.strand.enter (w.install c i).1.2.toList) (w.install c i).2 := by
  have hspan := enterSpan (w.mint i).2 ((w.mint i).2.newSpan i)
  exact (mint w i).after (·.enter _) ((hspan.still (setContext _ _ _)).still (.tell _ _))

/-- A call that begins enters its span, and one that does not enters none. -/
theorem begin (x : Executor) (w : World) (c : Call) :
    w.Strung (match (w.enter x c).1 with
      | .ok (_, span) => w.strand.enter span.toList
      | _ => w.strand) (w.enter x c).2 := by
  have hr := record w (w.resolveCall x c.assumed).signs
  unfold World.enter
  dsimp only
  rcases (w.resolveCall x c.assumed).value with i | e | text <;> dsimp only
  · exact hr.after (·.enter _) (install _ _ _)
  · exact hr.still (.tell _ _)
  · exact hr

theorem begin_ok {x : Executor} {c : Call} {hold : Hold} {span : Option Span}
    (h : w.enter x c = (.ok (hold, span), w')) : w.Strung (w.strand.enter span.toList) w' := by
  have hb := begin x w c
  rw [h] at hb
  exact hb

theorem begin_failed {x : Executor} {c : Call} {o : Outcome ResolutionError (Hold × Option Span)}
    {e : Ending} (h : w.enter x c = (o, w')) (he : o.failure? = some e) :
    w.Strung w.strand w' := by
  have hb := begin x w c
  rw [h] at hb
  cases o with
  | ok => cases he
  | error | panic => exact hb

theorem restore (w : World) (h : Hold) (unwinding : Bool) :
    w.Strung w.strand (w.restore h unwinding) := by
  have htold : w.Strung w.strand (if unwinding then w.tell .unwinding else w) := by
    split
    · exact .tell w _
    · exact .refl w
  unfold World.restore
  generalize (if unwinding then w.tell .unwinding else w) = w₁ at htold ⊢
  dsimp only
  split
  · exact htold.still ((setContext _ _ _).still (.tell _ _))
  · exact htold.still (.tell _ _)

theorem leave (w : World) (mode : Mode) (a : Activation) (unwinding : Bool) :
    w.Strung (w.strand.leave a.span.toList) (w.leave mode a unwinding) := by
  cases mode with
  | sync => exact (restore w _ _).after (·.leave _) (exitSpan _ _)
  | async => exact (exitSpan w _).still (restore _ _ _)

theorem enterAll (w : World) (calls : List Activation) :
    w.Strung (w.strand.enter (callSpans calls)) (w.enterAll calls) := by
  induction calls with
  | nil => exact .refl w
  | cons a calls ih =>
    have h := ih.trans (enterSpan (w.enterAll calls) a.span)
    rw [ih.strand, ← Strand.enter_append] at h
    exact h

theorem exitAll (w : World) (calls : List Activation) :
    w.Strung (w.strand.leave (callSpans calls)) (w.exitAll calls) := by
  induction calls generalizing w with
  | nil => exact .refl w
  | cons a calls ih =>
    have hexit := exitSpan w a.span
    have h := hexit.trans (ih (w.exitSpan a.span))
    rw [hexit.strand, ← Strand.leave_append] at h
    exact h

theorem leaveAll (w : World) (calls : List Activation) :
    w.Strung (w.strand.leave (callSpans calls)) (w.leaveAll calls) := by
  induction calls generalizing w with
  | nil => exact .refl w
  | cons a calls ih =>
    have hleave := leave w .async a false
    have h := hleave.trans (ih (w.leave .async a false))
    rw [hleave.strand, ← Strand.leave_append] at h
    exact h

/-- Calls that are dropped are in their spans for that time only. -/
theorem cancel (w : World) (calls : List Activation) : w.Strung w.strand (w.cancel calls) := by
  have henter := enterAll w calls
  have h := henter.trans (leaveAll (w.enterAll calls) calls)
  rw [henter.strand, Strand.leave_enter] at h
  exact h

end Strung
end World

/-! ### Operations -/

namespace Op

/-- The binding of the running thread after an operation. -/
def binding (w : World) : Op → Option Nat
  | .bound => some w.bound.1
  | .bind c => some c
  | .unbind => none
  | _ => w.strand.bound

theorem become_strung (x : Executor) (w : World) (c : Nat) (p : String) :
    w.Strung w.strand (performBecome x w c p).2 := by
  have hr := World.Strung.record w (x.identify w.lookups none p).signs
  unfold performBecome
  dsimp only
  split
  · exact (hr.still (.mint _ _)).still ((World.Strung.setContext _ _ _).still (.tell _ _))
  · exact hr.still (.tell _ _)
  · exact hr

/-- Of the threads an operation changes at most the binding of the running one. -/
theorem perform_strung (x : Executor) (w : World) (op : Op) :
    w.Strung { w.strand with bound := op.binding w } (op.perform x w).2 := by
  have hset : ∀ b, w.Strung { w.strand with bound := b } (w.setStrand { w.strand with bound := b }) :=
    fun b => .setStrand w _
  cases op with
  | bound => exact .bound w
  | bind c => exact hset (some c)
  | unbind => exact hset none
  | become c p => exact become_strung x w c p
  | put | replace | push | pop => exact .setContext w _ _
  | mint i => exact .mint w i
  | newContext t => exact .addContext w t
  | resolve q => exact .record w _
  | number t => exact .numberSlot w t
  | know c => exact .know w c
  | note place verb r => exact .note w place verb r
  | look | isBound | arrange | registered | met | known | label | labelled | mark | marks =>
    exact .of_threads rfl rfl rfl rfl

end Op

/-! ### Lanes -/

namespace Level

/-- Another thread runs above this level. -/
def waits : Level → Bool
  | waiting .. => true
  | running .. | polling .. => false

/-- The span that a level has entered. -/
def spans : Level → List Span
  | running _ a => a.span.toList
  | polling .. | waiting .. => []

/-- The work is what comes after this level. -/
def GoesOn (work : Work) : Level → Prop
  | running _ a => ∃ e, work = a.next e
  | polling _ next => ∃ p, work = next p
  | waiting _ _ next => ∃ q, work = next q

theorem waits_calls {calls : List Activation} {l : Level} (h : l.waits = false) :
    ∀ k ∈ calls.map (running .async) ++ [l], k.waits = false := by
  simp only [List.mem_append, List.mem_map, List.mem_singleton]
  rintro k (⟨a, -, rfl⟩ | rfl)
  · rfl
  · exact h

theorem spans_calls (calls : List Activation) (l : Level) :
    (calls.map (running .async) ++ [l]).flatMap spans = callSpans calls ++ l.spans := by
  simp [callSpans, spans, List.flatMap_map]

end Level

/-- A thread that has not ended, with what is in progress in it. -/
structure Lane where
  thread : Nat
  levels : List Level

/-- What is in progress in the thread that runs above these levels, and the lanes of those that wait
below. -/
def lanesIn : List Level → List Level × List Lane
  | [] => ([], [])
  | .waiting _ waiter _ :: r => ([], ⟨waiter, (lanesIn r).1⟩ :: (lanesIn r).2)
  | l :: r => (l :: (lanesIn r).1, (lanesIn r).2)

theorem lanesIn_append {ls r : List Level} (h : ∀ l ∈ ls, l.waits = false) :
    lanesIn (ls ++ r) = (ls ++ (lanesIn r).1, (lanesIn r).2) := by
  induction ls with
  | nil => rfl
  | cons l ls ih =>
    have hls := ih fun l' hl' => h l' (List.mem_cons_of_mem _ hl')
    cases l with
    | waiting => cases h _ (List.mem_cons_self ..)
    | running | polling => simp [lanesIn, hls]

theorem lanesIn_waiting (ls : List Level) (name : String) (waiter : Nat) (next : Waited → Work)
    (r : List Level) : lanesIn (ls ++ .waiting name waiter next :: r) =
      ((lanesIn ls).1, (lanesIn ls).2 ++ ⟨waiter, (lanesIn r).1⟩ :: (lanesIn r).2) := by
  induction ls with
  | nil => rfl
  | cons l ls ih => cases l <;> simp [lanesIn, ih]

/-- The lanes of a paused thread, and of those that wait in it. -/
def Paused.lanes (p : Paused) : List Lane := ⟨p.thread, (lanesIn p.levels).1⟩ :: (lanesIn p.levels).2

namespace Machine

/-- The lane of the running thread, those of the threads that wait for it, and those of paused ones. -/
def lanes (m : Machine) : List Lane :=
  ⟨m.world.running, (lanesIn m.stack).1⟩ :: (lanesIn m.stack).2 ++ m.paused.flatMap Paused.lanes

/-- The binding of the running thread after its next step. -/
def binding (m : Machine) : Option Nat :=
  match m.work with
  | .act op _ => op.binding m.world
  | .thread _ true _ _ => some m.world.bound.1
  | _ => m.world.strand.bound

/-- What a step does to lanes and strands. -/
inductive Shift (m m' : Machine) : Prop
  /-- More is in progress in the running thread. -/
  | pushed (ls r : List Level) (rest : List Lane) : m.lanes = ⟨m.world.running, r⟩ :: rest →
      m'.lanes = ⟨m.world.running, ls ++ r⟩ :: rest →
      m.world.Strung ⟨m.binding, ls.flatMap Level.spans ++ m.world.strand.entered⟩ m'.world →
      Shift m m'
  /-- A level is left, with the asynchronous calls above it, and the work goes on after it. -/
  | popped (calls : List Activation) (l : Level) (r : List Level) (rest : List Lane) :
      m.lanes = ⟨m.world.running, calls.map (.running .async) ++ l :: r⟩ :: rest →
      m'.lanes = ⟨m.world.running, r⟩ :: rest →
      l.GoesOn m'.work → m.binding = m.world.strand.bound →
      m.world.Strung (m.world.strand.leave (callSpans calls ++ l.spans)) m'.world → Shift m m'
  /-- A thread begins, bound as its parent if it inherits, and else to nothing. -/
  | begun (name : String) (inherits : Bool) (body : Work) (next : Waited → Work) (w : World) :
      m.work = .thread name inherits body next → m'.lanes = ⟨m.world.threadCount, []⟩ :: m.lanes →
      m.world.Strung { m.world.strand with bound := m.binding } w →
      m'.world = w.startThread ⟨if inherits then m.binding else .none, []⟩ → Shift m m'
  | ended (t : Nat) : m.lanes = ⟨m.world.running, []⟩ :: m'.lanes →
      m.binding = m.world.strand.bound → m'.world = m.world.switchTo t → Shift m m'
  | passed (t : Nat) : m.lanes.Perm m'.lanes →
      m.binding = m.world.strand.bound → m'.world = m.world.switchTo t → Shift m m'

namespace Shift
variable {m m' : Machine}

theorem none (hb : m.binding = m.world.strand.bound) (hl : m'.lanes = m.lanes)
    (hw : m.world.Strung m.world.strand m'.world) : Shift m m' :=
  .pushed [] _ _ rfl hl (by rw [hb]; exact hw)

/-- The running thread has entered levels on top of its stack. -/
theorem of_push (ls : List Level) (hb : m.binding = m.world.strand.bound)
    (hls : ∀ l ∈ ls, l.waits = false)
    (hs : m'.stack = ls ++ m.stack) (hp : m'.paused = m.paused)
    (hw : m.world.Strung (m.world.strand.enter (ls.flatMap Level.spans)) m'.world) : Shift m m' := by
  refine .pushed ls (lanesIn m.stack).1 ((lanesIn m.stack).2 ++ m.paused.flatMap Paused.lanes) rfl ?_
    (by rw [hb]; exact hw)
  simp only [lanes, hs, hp, lanesIn_append hls, hw.running, List.cons_append]

/-- It has left a level of its stack. -/
theorem of_pop (calls : List Activation) {r : List Level} {l : Level}
    (hb : m.binding = m.world.strand.bound) (hw : l.waits = false)
    (hs : m.stack = calls.map (.running .async) ++ l :: r) (hs' : m'.stack = r)
    (hp : m'.paused = m.paused) (hl : l.GoesOn m'.work)
    (hw' : m.world.Strung (m.world.strand.leave (callSpans calls ++ l.spans)) m'.world) :
    Shift m m' := by
  refine .popped calls l (lanesIn r).1 ((lanesIn r).2 ++ m.paused.flatMap Paused.lanes) ?_ ?_ hl hb hw'
  · have hsplit : m.stack = (calls.map (.running .async) ++ [l]) ++ r := by
      rw [hs, List.append_assoc]
      rfl
    rw [lanes, hsplit, lanesIn_append (Level.waits_calls hw), List.append_assoc]
    rfl
  · simp only [lanes, hs', hp, hw'.running, List.cons_append]

end Shift

/-! ### One lemma for each form of control -/

theorem strung_dropFuture (m : Machine) (name : String) :
    m.world.Strung m.world.strand (m.dropFuture name).world := by
  unfold dropFuture
  split
  · exact .cancel _ _
  · exact .refl _

theorem lanes_dropFuture (m : Machine) (name : String) : (m.dropFuture name).lanes = m.lanes := by
  have hpaused : (m.dropFuture name).paused = m.paused := by unfold dropFuture; split <;> rfl
  unfold lanes
  rw [stack_dropFuture, hpaused, (strung_dropFuture m name).running]

theorem finish_shift (m : Machine) {e : Ending} (hm : m.work = .done e) : Shift m (m.finish e) := by
  have hb : m.binding = m.world.strand.bound := by simp only [binding, hm]
  unfold finish
  split <;> rename_i hs
  · exact .none hb rfl (.refl _)
  · rename_i mode a r
    exact .of_pop [] hb rfl hs rfl rfl ⟨e, rfl⟩ (.leave m.world mode a e.isPanic)
  · exact .of_pop [] hb rfl hs rfl rfl ⟨.ready e, rfl⟩ (.refl _)
  · rename_i waiter next r
    refine .ended waiter ?_ hb rfl
    simp only [lanes, hs, lanesIn]
    rfl

theorem call_shift (x : Executor) (m : Machine) {mode : Mode} {c : Call} {body : Work}
    {next : Ending → Work} (hm : m.work = .call mode c body next) :
    Shift m (m.call x mode c body next) := by
  have hb : m.binding = m.world.strand.bound := by simp only [binding, hm]
  have hstep : m.step x = m.call x mode c body next := by simp only [step, hm]
  rw [← hstep]
  rcases World.enter_ok_or_failed x m.world c with ⟨hold, span, w, h⟩ | ⟨o, e, w, h, he⟩
  · rw [step_call_ok hm h]
    refine .of_push [.running mode ⟨hold, span, next⟩] hb (by simp [Level.waits]) rfl rfl ?_
    simpa [Level.spans] using World.Strung.begin_ok h
  · rw [step_call_failed hm h he]
    have hw := World.Strung.begin_failed h he
    refine .none hb ?_ hw
    simp only [lanes, hw.running]

theorem poll_shift (m : Machine) {name : String} {next : Polled → Work}
    (hm : m.work = .poll name next) : Shift m (m.poll name next) := by
  have hb : m.binding = m.world.strand.bound := by simp only [binding, hm]
  unfold poll
  split
  · exact .none hb rfl (.refl _)
  · rename_i f hf
    refine .of_push (f.calls.map (.running .async) ++ [.polling name next]) hb
      (Level.waits_calls rfl) ?_ rfl ?_
    · simp
    · rw [Level.spans_calls, Level.spans, List.append_nil]
      exact .enterAll m.world f.calls

theorem yield_shift (m : Machine) {next : Work} (hm : m.work = .yield next) :
    Shift m (m.yield next) := by
  have hb : m.binding = m.world.strand.bound := by simp only [binding, hm]
  unfold yield
  split
  · exact .none hb rfl (.refl _)
  · rename_i calls name polled rest hs
    refine .of_pop calls (l := .polling name polled) hb rfl (splitPoll_eq hs) rfl ?_ ⟨.pending, rfl⟩ ?_
    · show (dropFuture _ name).paused = m.paused
      unfold dropFuture
      split <;> rfl
    · rw [Level.spans, List.append_nil]
      exact (World.Strung.exitAll m.world calls).still
        (strung_dropFuture { m with world := m.world.exitAll calls } name)

theorem thread_shift (m : Machine) {name : String} {inherits : Bool} {body : Work}
    {next : Waited → Work} (hm : m.work = .thread name inherits body next) :
    Shift m (m.thread name inherits body next) := by
  unfold thread
  cases inherits with
  | false =>
    have hb : m.binding = m.world.strand.bound := by simp only [binding, hm]
    refine .begun name false body next m.world hm rfl ?_ rfl
    rw [hb]
    exact .refl _
  | true =>
    have hb : m.binding = some m.world.bound.1 := by simp only [binding, hm]
    have hw := World.Strung.bound m.world
    refine .begun name true body next m.world.bound.2 hm ?_ ?_ (by rw [hb]; rfl)
    · simp [lanes, lanesIn, World.startThread, hw.threadCount]
    · rw [hb]
      exact hw

theorem pause_shift (m : Machine) {next : Bool → Work} (hm : m.work = .pause next) :
    Shift m (m.pause next) := by
  have hb : m.binding = m.world.strand.bound := by simp only [binding, hm]
  unfold pause
  split
  · exact .none hb rfl (.refl _)
  · rename_i levels name waiter waited rest hs
    refine .passed waiter ?_ hb rfl
    have hunnamed : (m.paused.map (Paused.unnamed name)).flatMap Paused.lanes =
        m.paused.flatMap Paused.lanes := by
      rw [List.flatMap_map]
      exact congrArg (List.flatMap · _) (funext fun p => by unfold Paused.unnamed; split <;> rfl)
    let upper := Paused.lanes ⟨some name, m.world.running, next true, levels⟩
    let lower := ⟨waiter, (lanesIn rest).1⟩ :: (lanesIn rest).2
    have h : (upper ++ lower).Perm (lower ++ upper) := List.perm_append_comm
    simpa [lanes, splitThread_eq hs, lanesIn_waiting, hunnamed, upper, lower, Paused.lanes,
      World.switchTo] using h.append_right (m.paused.flatMap Paused.lanes)

theorem resume_shift (m : Machine) {name : String} {next : Waited → Work}
    (hm : m.work = .resume name next) : Shift m (m.resume name next) := by
  have hb : m.binding = m.world.strand.bound := by simp only [binding, hm]
  unfold resume
  split
  · exact .none hb rfl (.refl _)
  · rename_i p hp
    refine .passed p.thread ?_ hb rfl
    let lower := ⟨m.world.running, (lanesIn m.stack).1⟩ :: (lanesIn m.stack).2
    let paused := (m.paused.eraseP (·.name == some name)).flatMap Paused.lanes
    have hpaused : (m.paused.flatMap Paused.lanes).Perm (p.lanes ++ paused) :=
      (perm_cons_eraseP hp).flatMap_right Paused.lanes
    have h : (lower ++ (p.lanes ++ paused)).Perm (p.lanes ++ (lower ++ paused)) :=
      List.perm_append_comm_assoc ..
    have hlanes : (lower ++ m.paused.flatMap Paused.lanes).Perm (p.lanes ++ (lower ++ paused)) :=
      (hpaused.append_left lower).trans h
    simpa [lanes, lanesIn_waiting, lower, paused, Paused.lanes, World.switchTo] using hlanes

theorem step_shift (x : Executor) (m : Machine) : Shift m (m.step x) := by
  have hdrop : ∀ name m', m'.lanes = (m.dropFuture name).lanes →
      m'.world = (m.dropFuture name).world → m.binding = m.world.strand.bound → Shift m m' :=
    fun name m' hl hw hb => .none hb (hl.trans (lanes_dropFuture m name))
      (hw ▸ strung_dropFuture m name)
  unfold step
  split <;> rename_i hm
  · exact finish_shift m hm
  · rename_i op next
    have hw := op.perform_strung x m.world
    refine .pushed [] _ _ rfl ?_ (by simp only [binding, hm]; exact hw)
    simp only [lanes, hw.running]
    rfl
  · exact call_shift x m hm
  · exact hdrop _ _ rfl rfl (by simp only [binding, hm])
  · exact poll_shift m hm
  · exact hdrop _ _ rfl rfl (by simp only [binding, hm])
  · exact yield_shift m hm
  · exact thread_shift m hm
  · exact pause_shift m hm
  · exact resume_shift m hm

/-! ### Threads that are started -/

/-- The threads that have not ended. -/
def crew (m : Machine) : List Nat := m.lanes.map Lane.thread

/-- Threads that have not ended are different ones, and each was started. -/
structure Crewed (m : Machine) : Prop where
  nodup : m.crew.Nodup
  started : ∀ t ∈ m.crew, t < m.world.threadCount

theorem Crewed.running {m : Machine} (h : m.Crewed) : m.world.running < m.world.threadCount :=
  h.started m.world.running (List.mem_cons_self ..)

namespace Shift

theorem crewed (h : Shift m m') (hc : m.Crewed) : m'.Crewed := by
  obtain ⟨hnodup, hstarted⟩ := hc
  cases h with
  | pushed _ r rest hl hl' hw | popped _ l r rest hl hl' _ _ hw =>
    have hcrew : m'.crew = m.crew := by rw [crew, crew, hl, hl']; rfl
    exact ⟨hcrew ▸ hnodup, fun t ht => hw.threadCount ▸ hstarted t (hcrew ▸ ht)⟩
  | begun _ _ _ _ w _ hl hw hm =>
    have hcrew : m'.crew = m.world.threadCount :: m.crew := by rw [crew, hl]; rfl
    have hcount : m'.world.threadCount = m.world.threadCount + 1 := by
      rw [hm, ← hw.threadCount]
      rfl
    constructor
    · rw [hcrew]
      exact List.nodup_cons.2 ⟨fun hmem => Nat.lt_irrefl _ (hstarted _ hmem), hnodup⟩
    · intro t ht
      rw [hcount]
      rcases List.mem_cons.1 (hcrew ▸ ht) with rfl | ht
      · exact Nat.lt_succ_self _
      · exact Nat.lt_succ_of_lt (hstarted t ht)
  | ended u hl _ hm =>
    have hcrew : m.crew = m.world.running :: m'.crew := by rw [crew, hl]; rfl
    rw [hcrew] at hnodup hstarted
    refine ⟨(List.nodup_cons.1 hnodup).2, fun t ht => ?_⟩
    rw [hm]
    exact hstarted t (List.mem_cons_of_mem _ ht)
  | passed u hl _ hm =>
    have hcrew : m.crew.Perm m'.crew := hl.map Lane.thread
    refine ⟨hcrew.nodup_iff.1 hnodup, fun t ht => ?_⟩
    rw [hm]
    exact hstarted t (hcrew.mem_iff.2 ht)

/-- A step changes the binding of the running thread only. -/
theorem bound (h : Shift m m') {t : Nat} (ht : t < m.world.threadCount) :
    (m'.world.thread t).bound =
      if m.world.running = t then m.binding else (m.world.thread t).bound := by
  have hself : ∀ u, m.binding = m.world.strand.bound → m'.world = m.world.switchTo u →
      (m'.world.thread t).bound =
        if m.world.running = t then m.binding else (m.world.thread t).bound := by
    intro u hb hm
    rw [hm, hb]
    split
    · rename_i hr
      rw [← hr]
      rfl
    · rfl
  cases h with
  | pushed _ _ _ _ _ hw => rw [hw.thread]; split <;> rfl
  | popped _ _ _ _ _ _ _ hb hw => rw [hw.thread, hb]; split <;> rfl
  | begun _ _ _ _ w _ _ hw hm =>
    have hne : w.threadCount ≠ t := fun he => Nat.ne_of_lt ht (he ▸ hw.threadCount)
    rw [hm, World.thread_startThread, if_neg hne, hw.thread]
    split <;> rfl
  | ended u _ hb hm | passed u _ hb hm => exact hself u hb hm

end Shift

end Machine

/-- The running thread is started, and a thread that is not started yet is as a new one. -/
structure World.Manned (w : World) : Prop where
  running : w.running < w.threadCount
  unborn : ∀ t, w.threadCount ≤ t → w.thread t = .fresh

theorem World.start_manned (y : Context) (tokens : Nat) (l : Lookups) (spansOn : Bool) :
    (World.start y tokens l spansOn).Manned :=
  ⟨Nat.zero_lt_one, fun _ _ => rfl⟩

namespace Machine
variable {x : Executor} {w : World}

theorem crewed_run (x : Executor) (work : Work) (hw : w.Manned) (n : Nat) :
    ((start work w).run x n).Crewed := by
  induction n with
  | zero =>
    refine ⟨List.pairwise_singleton .., fun t ht => ?_⟩
    rw [List.mem_singleton.1 ht]
    exact hw.running
  | succ n ih =>
    rw [run_succ']
    exact (step_shift x _).crewed ih

end Machine
end Guise

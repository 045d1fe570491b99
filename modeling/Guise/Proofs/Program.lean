import Guise.Proofs.Changes

/-!
# Programs

`Program` is the work of one thread that suspends nothing: operations and synchronous calls, nested
to any depth. `Program.eval` gives its whole course in one recursion, with what every operation and
call in it answered. `Program.reaches`: a machine that has the work of a program in hand gets to the
ending that `eval` gives, whatever is in progress below, and observes the same answers on the way.
-/

namespace Guise

/-- A world with one context, and collaborators that know nobody. -/
def World.bare (y : Context) : World := .start y 0 (.ofStores .empty .empty) false

/-- Something that work gets to know: the answer of an operation, or the ending of a call. -/
inductive Event where
  | answered (op : Op) (a : op.Answer)
  | ended (e : Ending)

namespace Machine
variable {x : Executor} {m m₁ m₂ : Machine} {es es' : List Event}

theorem step_of_ending (h : m.ending?.isSome) : m.step x = m := by
  obtain ⟨work, stack, world, futures, paused⟩ := m
  cases work <;> cases stack <;> first | rfl | cases h

theorem run_of_ending (h : m.ending?.isSome) (n : Nat) : m.run x n = m := by
  cases n with
  | zero => rfl
  | succ n => rw [run, if_pos h]

/-- A run takes its steps one by one, and the steps after the ending change nothing. -/
theorem run_succ (x : Executor) (n : Nat) (m : Machine) : m.run x (n + 1) = (m.step x).run x n := by
  by_cases h : m.ending?.isSome
  · rw [run_of_ending h, step_of_ending h, run_of_ending h]
  · rw [run, if_neg h]

theorem run_add (x : Executor) (n k : Nat) (m : Machine) :
    m.run x (n + k) = (m.run x n).run x k := by
  induction n generalizing m with
  | zero => rw [Nat.zero_add]; rfl
  | succ n ih => rw [Nat.succ_add, run_succ, ih, run_succ]

theorem run_succ' (x : Executor) (n : Nat) (m : Machine) : m.run x (n + 1) = (m.run x n).step x := by
  rw [run_add, run_succ]; rfl

/-- What is read off each machine of a run, where it has something, comes in order of the steps. -/
theorem filterMap_run_succ {α : Type} (f : Machine → Option α) (x : Executor) (m : Machine) (n : Nat) :
    (List.range (n + 1)).filterMap (fun k => f (m.run x k)) =
      (List.range n).filterMap (fun k => f (m.run x k)) ++ (f (m.run x n)).toList := by
  rw [List.range_succ, List.filterMap_append]
  cases h : f (m.run x n) <;> simp [h]

/-- What the next step lets work know. -/
def observed (x : Executor) (m : Machine) : List Event :=
  match m.work, m.stack with
  | .act op _, _ => [.answered op (op.perform x m.world).1]
  | .done e, .running .. :: _ => [.ended e]
  | .call _ c _ _, _ =>
    match (m.world.enter x c).1 with
    | .ok _ => []
    | .error e => [.ended (.error (.resolution e))]
    | .panic text => [.ended (.panic text)]
  | _, _ => []

/-- What work gets to know in so many steps. -/
def trace (x : Executor) : Nat → Machine → List Event
  | 0, _ => []
  | n + 1, m => m.observed x ++ trace x n (m.step x)

theorem trace_add (x : Executor) (n k : Nat) (m : Machine) :
    m.trace x (n + k) = m.trace x n ++ (m.run x n).trace x k := by
  induction n generalizing m with
  | zero => rw [Nat.zero_add]; rfl
  | succ n ih => rw [Nat.succ_add, trace, trace, ih, run_succ, List.append_assoc]

/-- A machine gets to another, and work gets to know these things on the way. -/
def Reaches (x : Executor) (m : Machine) (es : List Event) (m₁ : Machine) : Prop :=
  ∃ n, m.run x n = m₁ ∧ m.trace x n = es

theorem Reaches.refl (x : Executor) (m : Machine) : m.Reaches x [] m := ⟨0, rfl, rfl⟩

theorem Reaches.trans (h : m.Reaches x es m₁) (h' : m₁.Reaches x es' m₂) :
    m.Reaches x (es ++ es') m₂ := by
  obtain ⟨n, rfl, rfl⟩ := h
  obtain ⟨k, rfl, rfl⟩ := h'
  exact ⟨n + k, run_add x n k m, trace_add x n k m⟩

theorem Reaches.of_step (hes : m.observed x = es) (hm : m.step x = m₁) : m.Reaches x es m₁ :=
  ⟨1, (run_succ x 0 m).trans hm, (List.append_nil _).trans hes⟩

/-! ### The first step of a call -/

section Call
variable {mode : Mode} {c : Call} {body : Work} {next : Ending → Work} {w : World}
  (hm : m.work = .call mode c body next)
include hm

theorem step_call_ok {hold : Hold} {span : Option Span}
    (h : m.world.enter x c = (.ok (hold, span), w)) : m.step x =
      { m with work := body, stack := .running mode ⟨hold, span, next⟩ :: m.stack, world := w } := by
  simp [step, hm, call, h]

theorem observed_call_ok {hold : Hold} {span : Option Span}
    (h : m.world.enter x c = (.ok (hold, span), w)) : m.observed x = [] := by
  simp [observed, hm, h]

section Failed
variable {o : Outcome ResolutionError (Hold × Option Span)} {e : Ending}
  (h : m.world.enter x c = (o, w)) (he : o.failure? = some e)
include h he

theorem step_call_failed : m.step x = { m with work := next e, world := w } := by
  cases o with
  | ok => cases he
  | error | panic =>
    cases he
    simp [step, hm, call, h]

theorem observed_call_failed : m.observed x = [.ended e] := by
  cases o with
  | ok => cases he
  | error | panic =>
    cases he
    simp [observed, hm, h]

end Failed
end Call

end Machine

/-- The work of a single thread, made of operations and synchronous calls. -/
inductive Program where
  | done (e : Ending)
  | act (op : Op) (next : op.Answer → Program)
  | call (c : Call) (body : Program) (next : Ending → Program)

/-- What evaluating a program comes to: what it gets to know, its ending, and the world after it. -/
structure Course where
  events : List Event
  ending : Ending
  world : World

namespace Program

/-- The program as a unit of work. -/
def work : Program → Work
  | done e => .done e
  | act op next => .act op fun a => (next a).work
  | call c body next => .call .sync c body.work fun e => (next e).work

/-- The program as the first part of a unit of work, which goes on from the program's ending. -/
def before : Program → (Ending → Work) → Work
  | done e, k => k e
  | act op next, k => .act op fun a => (next a).before k
  | call c body next, k => .call .sync c body.work fun e => (next e).before k

theorem before_done (p : Program) : p.before .done = p.work := by
  induction p with
  | done e => rfl
  | act op next ih => simp [before, work, ih]
  | call c body next _ ih => simp [before, work, ih]

/-- Every operation in the program is of one sort, and every call of another. -/
def Uses (P : Op → Prop) (Q : Call → Prop) : Program → Prop
  | done _ => True
  | act op next => P op ∧ ∀ a, (next a).Uses P Q
  | call c body next => Q c ∧ body.Uses P Q ∧ ∀ e, (next e).Uses P Q

theorem Uses.mono {P P' : Op → Prop} {Q Q' : Call → Prop} {p : Program} (h : p.Uses P Q)
    (hP : ∀ op, P op → P' op) (hQ : ∀ c, Q c → Q' c) : p.Uses P' Q' := by
  induction p with
  | done e => trivial
  | act op next ih => exact ⟨hP op h.1, fun a => ih a (h.2 a)⟩
  | call c body next ihb ihn => exact ⟨hQ c h.1, ihb h.2.1, fun e => ihn e (h.2.2 e)⟩

/-- The course of a program from a world on. -/
def eval (x : Executor) : Program → World → Course
  | done e, w => ⟨[], e, w⟩
  | act op next, w =>
    let r := op.perform x w
    let s := (next r.1).eval x r.2
    { s with events := .answered op r.1 :: s.events }
  | call c body next, w =>
    match w.enter x c with
    | (.ok (hold, span), w) =>
      let b := body.eval x w
      let a : Activation := ⟨hold, span, fun e => (next e).work⟩
      let s := (next b.ending).eval x (b.world.leave .sync a b.ending.isPanic)
      { s with events := b.events ++ .ended b.ending :: s.events }
    | (.error e, w) =>
      let s := (next (.error (.resolution e))).eval x w
      { s with events := .ended (.error (.resolution e)) :: s.events }
    | (.panic text, w) =>
      let s := (next (.panic text)).eval x w
      { s with events := .ended (.panic text) :: s.events }

theorem eval_call_ok {x : Executor} {c : Call} {body : Program} {next : Ending → Program}
    {w w₁ : World} {hold : Hold} {span : Option Span} (h : w.enter x c = (.ok (hold, span), w₁)) :
    ((call c body next).eval x w).world = ((next (body.eval x w₁).ending).eval x
      ((body.eval x w₁).world.leave .sync ⟨hold, span, fun e => (next e).work⟩
        (body.eval x w₁).ending.isPanic)).world := by
  simp [eval, h]

theorem eval_call_failed {x : Executor} {c : Call} {body : Program} {next : Ending → Program}
    {w w₁ : World} {o : Outcome ResolutionError (Hold × Option Span)} {e : Ending}
    (h : w.enter x c = (o, w₁)) (he : o.failure? = some e) : (call c body next).eval x w =
      { (next e).eval x w₁ with events := .ended e :: ((next e).eval x w₁).events } := by
  cases o with
  | ok => cases he
  | error | panic =>
    cases he
    simp [eval, h]

/-- A machine with a program and more work in hand gets to that work with the ending of the program's
course. -/
theorem reaches_before (x : Executor) (p : Program) (k : Ending → Work) (m : Machine)
    (hm : m.work = p.before k) : m.Reaches x (p.eval x m.world).events
      { m with work := k (p.eval x m.world).ending, world := (p.eval x m.world).world } := by
  obtain ⟨work, stack, w, futures, paused⟩ := m
  cases hm
  induction p generalizing k stack w with
  | done e => exact .refl x _
  | act op next ih => exact (Machine.Reaches.of_step rfl rfl).trans (ih _ k stack _)
  | call c body next ihb ihn =>
    let m : Machine := ⟨(call c body next).before k, stack, w, futures, paused⟩
    have hm : m.work = .call .sync c body.work fun e => (next e).before k := rfl
    rcases World.enter_ok_or_failed x w c with ⟨hold, span, w₁, h⟩ | ⟨o, e, w₁, h, he⟩
    · -- the body runs to its ending on top of the call's level, which then goes on with it
      let a : Activation := ⟨hold, span, fun e => (next e).before k⟩
      let b := body.eval x w₁
      -- to leave a call takes its frame and its span, not what comes after it
      let w₂ := b.world.leave .sync ⟨hold, span, fun e => (next e).work⟩ b.ending.isPanic
      have h₁ : m.Reaches x [] ⟨body.before .done, .running .sync a :: stack, w₁, futures, paused⟩ :=
        .of_step (Machine.observed_call_ok hm h)
          (body.before_done ▸ Machine.step_call_ok hm h)
      have h₂ : Machine.Reaches x ⟨body.before .done, .running .sync a :: stack, w₁, futures, paused⟩
          (b.events ++ [.ended b.ending]) ⟨(next b.ending).before k, stack, w₂, futures, paused⟩ :=
        (ihb .done _ w₁).trans (.of_step rfl rfl)
      simpa [eval, h, b, w₂] using h₁.trans (h₂.trans (ihn _ k stack w₂))
    · -- nothing was installed
      have h₁ : m.Reaches x [.ended e] ⟨(next e).before k, stack, w₁, futures, paused⟩ :=
        .of_step (Machine.observed_call_failed hm h he) (Machine.step_call_failed hm h he)
      rw [eval_call_failed h he]
      exact h₁.trans (ihn e k stack w₁)

/-- A machine with the work of a program in hand gets to the ending of its course. -/
theorem reaches (x : Executor) (p : Program) (m : Machine) (hm : m.work = p.work) :
    m.Reaches x (p.eval x m.world).events
      { m with work := .done (p.eval x m.world).ending, world := (p.eval x m.world).world } :=
  p.reaches_before x .done m (hm.trans p.before_done.symm)

/-- A synchronous call that begins runs its work to the ending of its course, and then leaves. -/
theorem reaches_call {x : Executor} {m : Machine} {c : Call} {body : Program} {next : Ending → Work}
    {hold : Hold} {span : Option Span} {w : World} (hm : m.work = .call .sync c body.work next)
    (h : m.world.enter x c = (.ok (hold, span), w)) :
    let s := body.eval x w
    ∃ k, (m.step x).run x k = { m.step x with work := .done s.ending, world := s.world } ∧
      (m.step x).trace x k = s.events ∧
      m.run x (k + 2) = { m with
        work := next s.ending
        world := s.world.leave .sync ⟨hold, span, next⟩ s.ending.isPanic } := by
  intro s
  have hstep := Machine.step_call_ok hm h
  obtain ⟨k, hrun, htrace⟩ := body.reaches x (m.step x) (by rw [hstep])
  have hworld : (m.step x).world = w := by rw [hstep]
  rw [hworld] at hrun htrace
  refine ⟨k, hrun, htrace, ?_⟩
  rw [Machine.run_succ, Machine.run_succ', hrun, hstep]
  rfl

theorem eval_grows (x : Executor) (p : Program) (w : World) : w.Grows (p.eval x w).world := by
  induction p generalizing w with
  | done e => exact (World.Quiet.refl w).grows
  | act op next ih => exact (Op.perform_grows x w op).trans (ih _ _)
  | call c body next ihb ihn =>
    have hg := World.enter_grows x w c
    rcases World.enter_ok_or_failed x w c with ⟨hold, span, w₁, h⟩ | ⟨o, e, w₁, h, he⟩
    · rw [eval_call_ok h]
      rw [h] at hg
      exact ((hg.trans (ihb w₁)).trans (World.leave_grows ..)).trans (ihn _ _)
    · rw [eval_call_failed h he]
      rw [h] at hg
      exact hg.trans (ihn e w₁)

end Program
end Guise

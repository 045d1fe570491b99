import Guise.Work

/-! # Running work

A machine holds the work in hand and, below it, what is in progress: calls whose work has not ended,
polls, and threads that wait for another.  Each step does one thing.  A call in progress holds a
frame of its context; however its work ends, and also when it is dropped while suspended, exactly
that frame is taken back. -/

namespace Guise

/-- The frame that a call in progress holds. -/
structure Hold where
  context : Nat
  frame : Nat
  deriving DecidableEq

/-- A call in progress: its frame, its span, and what comes after it. -/
structure Activation where
  hold : Hold
  span : Option Span
  next : Ending → Work

/-- Something in progress below the work in hand. -/
inductive Level where
  | running (mode : Mode) (a : Activation)
  /-- A poll of a future, whose body runs above. -/
  | polling (name : String) (next : Polled → Work)
  /-- A thread that waits for the one of that name, which runs above. -/
  | waiting (name : String) (waiter : Nat) (next : Waited → Work)

/-- A future between polls: the work to go on with, and its calls in progress, the innermost
first. -/
structure Future where
  work : Work
  calls : List Activation

/-- A thread that has paused: the name under which it can be resumed, the work to go on with, and
what is in progress in it. -/
structure Paused where
  /-- None once another thread has paused under the name. -/
  name : Option String
  thread : Nat
  work : Work
  levels : List Level

/-- The thread without a name, if this was its name. -/
def Paused.unnamed (name : String) (p : Paused) : Paused :=
  if p.name = some name then { p with name := none } else p

structure Machine where
  work : Work
  stack : List Level
  world : World
  futures : Table String Future
  /-- The paused threads, the latest first; a thread that nobody can resume any more stays. -/
  paused : List Paused

namespace World

/-- The identity that a call installs. -/
def resolveCall (x : Executor) (w : World) : Assumed → Traced (Outcome ResolutionError Identity)
  | .system => x.system w.lookups
  | .anonymous => ⟨.ok x.anonymous, []⟩
  | .user principal => x.identify w.lookups none principal
  | .identity i => ⟨.ok i, []⟩

/-- Installs an identity in a context, inside a span of its own. -/
def install (w : World) (c : Nat) (i : Identity) : (Hold × Option Span) × World :=
  let (t, w) := w.mint i
  let span := w.newSpan i
  let w := w.enterSpan span
  let (frame, y) := (w.context c).push (some t)
  let w := w.setContext c y
  ((⟨c, frame⟩, span), w.tell (.installed y.depth))

/-- Begins a call: resolves its identity and installs it.  A failure is told and changes no
context. -/
def enter (x : Executor) (w : World) (c : Call) :
    Outcome ResolutionError (Hold × Option Span) × World :=
  let r := w.resolveCall x c.assumed
  let w := w.record r.signs
  match r.value with
  | .ok i => let (h, w) := w.install c.context i; (.ok h, w)
  | .error e => (.error e, w.tell (.resolutionFailed e))
  | .panic text => (.panic text, w)

/-- Takes a frame back; the log hears of it, and of a panic on the way. -/
def restore (w : World) (h : Hold) (unwinding : Bool) : World :=
  let w := if unwinding then w.tell .unwinding else w
  match (w.context h.context).pop h.frame with
  | (true, y) => (w.setContext h.context y).tell (.restored y.principal y.depth)
  | (false, _) => w.tell (.frameGone h.frame)

/-- Ends a call.  The span of a synchronous call is left last, that of an asynchronous one first. -/
def leave (w : World) (mode : Mode) (a : Activation) (unwinding : Bool) : World :=
  match mode with
  | .sync => (w.restore a.hold unwinding).exitSpan a.span
  | .async => (w.exitSpan a.span).restore a.hold unwinding

/-- Enters the spans of suspended calls, the outermost first. -/
def enterAll (w : World) (calls : List Activation) : World :=
  calls.foldr (fun a w => w.enterSpan a.span) w

/-- Leaves the spans of calls that are being suspended, the innermost first. -/
def exitAll (w : World) (calls : List Activation) : World :=
  calls.foldl (fun w a => w.exitSpan a.span) w

/-- Drops suspended calls, the innermost first; nothing else of their work runs. -/
def cancel (w : World) (calls : List Activation) : World :=
  calls.foldl (fun w a => w.leave .async a false) (w.enterAll calls)

end World

namespace Machine

/-- Work that is about to run in a world. -/
def start (work : Work) (w : World) : Machine := ⟨work, [], w, [], []⟩

/-- The asynchronous calls on top, and the poll below them with what is below that. -/
def splitPoll : List Level → Option (List Activation × String × (Polled → Work) × List Level)
  | .running .async a :: r => (splitPoll r).map fun (calls, rest) => (a :: calls, rest)
  | .polling name next :: r => some ([], name, next, r)
  | _ => none

/-- What is in progress in the running thread, and what waits for it. -/
def splitThread : List Level → Option (List Level × String × Nat × (Waited → Work) × List Level)
  | [] => none
  | .waiting name waiter next :: r => some ([], name, waiter, next, r)
  | l :: r => (splitThread r).map fun (levels, rest) => (l :: levels, rest)

def dropFuture (m : Machine) (name : String) : Machine :=
  match m.futures.find? name with
  | some f => { m with world := m.world.cancel f.calls, futures := m.futures.erase name }
  | none => m

/-- Drops all futures in the order of their names. -/
def dropFutures (m : Machine) : Machine :=
  ((m.futures.map (·.1)).foldr Text.place []).foldl dropFuture m

/-- Goes on with an ending below the work in hand. -/
def finish (m : Machine) (e : Ending) : Machine :=
  match m.stack with
  | [] => m
  | .running mode a :: r =>
    { m with work := a.next e, stack := r, world := m.world.leave mode a e.isPanic }
  | .polling _ next :: r => { m with work := next (.ready e), stack := r }
  | .waiting _ waiter next :: r =>
    { m with work := next (.ended e), stack := r, world := m.world.switchTo waiter }

/-- Begins a call, or goes on with the failure to begin it. -/
def call (x : Executor) (m : Machine) (mode : Mode) (c : Call) (body : Work)
    (next : Ending → Work) : Machine :=
  match m.world.enter x c with
  | (.ok (hold, span), w) =>
    { m with work := body, stack := .running mode ⟨hold, span, next⟩ :: m.stack, world := w }
  | (.error e, w) => { m with work := next (.error (.resolution e)), world := w }
  | (.panic text, w) => { m with work := next (.panic text), world := w }

def poll (m : Machine) (name : String) (next : Polled → Work) : Machine :=
  match m.futures.find? name with
  | none => { m with work := next .gone }
  | some f =>
    { m with
      work := f.work
      stack := f.calls.map (.running .async) ++ .polling name next :: m.stack
      world := m.world.enterAll f.calls
      futures := m.futures.erase name }

/-- Suspends the future that is being polled; elsewhere there is nothing to suspend. -/
def yield (m : Machine) (next : Work) : Machine :=
  match splitPoll m.stack with
  | none => { m with work := next }
  | some (calls, name, polled, rest) =>
    let m := { m with world := m.world.exitAll calls }
    let m := m.dropFuture name
    { m with work := polled .pending, stack := rest, futures := m.futures.put name ⟨next, calls⟩ }

/-- Starts a thread, which runs until it pauses or ends. -/
def thread (m : Machine) (name : String) (inherits : Bool) (body : Work)
    (next : Waited → Work) : Machine :=
  let waiter := m.world.running
  let (first, w) :=
    if inherits then
      let (c, w) := m.world.bound
      ({ Strand.fresh with bound := some c }, w)
    else (Strand.fresh, m.world)
  { m with
    work := body
    stack := .waiting name waiter next :: m.stack
    world := w.startThread first }

/-- Hands control back to the thread that waits for the running one. -/
def pause (m : Machine) (next : Bool → Work) : Machine :=
  match splitThread m.stack with
  | none => { m with work := next false }
  | some (levels, name, waiter, waited, rest) =>
    { m with
      work := waited .paused
      stack := rest
      world := m.world.switchTo waiter
      paused := ⟨some name, m.world.running, next true, levels⟩ ::
        m.paused.map (Paused.unnamed name) }

def resume (m : Machine) (name : String) (next : Waited → Work) : Machine :=
  match m.paused.find? (·.name == some name) with
  | none => { m with work := next .gone }
  | some p =>
    { m with
      work := p.work
      stack := p.levels ++ .waiting name m.world.running next :: m.stack
      world := m.world.switchTo p.thread
      paused := m.paused.eraseP (·.name == some name) }

/-- One step.  A machine whose work has ended with nothing in progress stays as it is. -/
def step (x : Executor) (m : Machine) : Machine :=
  match m.work with
  | .done e => m.finish e
  | .act op next =>
    let r := op.perform x m.world
    { m with work := next r.1, world := r.2 }
  | .call mode c body next => m.call x mode c body next
  | .future name body next =>
    let m := m.dropFuture name
    { m with work := next, futures := m.futures.put name ⟨body, []⟩ }
  | .poll name next => m.poll name next
  | .drop name next =>
    { m.dropFuture name with work := next (m.futures.find? name).isSome }
  | .yield next => m.yield next
  | .thread name inherits body next => m.thread name inherits body next
  | .pause next => m.pause next
  | .resume name next => m.resume name next

/-- The ending of a machine that has nothing more to do. -/
def ending? (m : Machine) : Option Ending :=
  match m.work, m.stack with
  | .done e, [] => some e
  | _, _ => none

/-- At most so many steps, and none after the ending. -/
def run (x : Executor) : Nat → Machine → Machine
  | 0, m => m
  | n + 1, m => if m.ending?.isSome then m else run x n (m.step x)

end Machine
end Guise

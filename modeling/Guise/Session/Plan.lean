import Guise.Session.Step

/-! # The work of a session

The unit of work that steps stand for.  Each step does its part and then notes its result under its
place, a list of positions from the outermost on; a call, a future and a thread note the start of
their work as well.  A step that an error or a panic passes by leaves no note.  What comes after a
step is given twice: `next` if the work goes on, `stop` if it ends here. -/

namespace Guise

namespace Work

/-- Does a thing without an answer of interest. -/
def perform (op : Op) (next : Work) : Work := act op fun _ => next

end Work

namespace Session

/-- A position in a session, the innermost index first. -/
abbrev Place := List Nat

/-- The positions from the outermost on, with points between them. -/
def Place.text (p : Place) : String := ".".intercalate (p.reverse.map toString)

/-- Notes the result of a step and goes on. -/
def report (place : Place) (verb : String) (r : Report) (next : Work) : Work :=
  .perform (.note (Place.text place) verb r) next

/-- Goes on with the context that a step names. -/
def Where.work (c : Where) (stop : Ending → Work) (next : Nat → Work) : Work :=
  match c with
  | number n => .act (.known n) fun c =>
    match c with
    | .ok c => next c
    | .error text => stop (.panic text)
  | bound => .act .bound fun i => .act (.know i) fun _ => next i

/-- Goes on with the token that a step names; a value makes a new one. -/
def Named.token (n : Named) (stop : Ending → Work) (next : Token → Work) : Work :=
  match n with
  | value i => .act (.mint i) next
  | met number => .act (.met number) fun t =>
    match t with
    | .ok t => next t
    | .error text => stop (.panic text)

/-- Goes on with the identity that a step names. -/
def Named.identity (n : Named) (stop : Ending → Work) (next : Identity → Work) : Work :=
  match n with
  | value i => next i
  | met _ => n.token stop fun t => next t.identity

/-- Goes on with the token that a step names, if it names one. -/
def slot (n : Option Named) (stop : Ending → Work) (next : Option Token → Work) : Work :=
  match n with
  | some n => n.token stop fun t => next (some t)
  | none => next none

/-- Goes on with whom a step runs its work as. -/
def Whom.work (w : Whom) (stop : Ending → Work) (next : Assumed → Work) : Work :=
  match w with
  | system => next .system
  | anonymous => next .anonymous
  | user p => next (.user p)
  | identity n => n.identity stop fun i => next (.identity i)

/-- Pushes a token a number of times, each time on the context that the step names, and goes on with
the number of the last frame. -/
def pushes (c : Where) (t : Option Token) (stop : Ending → Work) (next : Option Nat → Work)
    (last : Option Nat) : Nat → Work
  | 0 => next last
  | n + 1 => c.work stop fun i => .act (.push i t) fun frame => pushes c t stop next (some frame) n

/-- Goes on with the value of a resolution, notes its error, or panics with it. -/
def settled {α : Type} (o : Outcome ResolutionError α) (note : Report → Work) (stop : Ending → Work)
    (next : α → Work) : Work :=
  match o with
  | .ok a => next a
  | .error e => note (.failure (.resolution e))
  | .panic text => stop (.panic text)

/-- Notes a text, or nothing. -/
def textOrNothing (s : Option String) : Report := (s.map .text).getD .nothing

/-- The work of an action; `note` writes its result down and goes on. -/
def Action.work (x : Executor) (a : Action) (note : Report → Work) (stop : Ending → Work) : Work :=
  match a with
  | newContext i => slot i stop fun t => .act (.newContext t) fun c => .act (.know c) fun n =>
      note (.count n)
  | token i => i.identity stop fun i => .act (.mint i) fun t => .act (.number (some t)) fun n =>
      note (.token n)
  | get c => c.work stop fun c => .act (.look c .visible) fun t => .act (.number t) fun n =>
      note (.token n)
  | set c i => i.token stop fun t => c.work stop fun c => .perform (.put c (some t)) (note .nothing)
  | clear c => c.work stop fun c => .perform (.put c none) (note .nothing)
  | replace c i => slot i stop fun t => c.work stop fun c => .act (.replace c t) fun previous =>
      .act (.number previous) fun n => note (.token n)
  | depth c => c.work stop fun c => .act (.look c .depth) fun n => note (.count n)
  | isAuthenticated c => c.work stop fun c => .act (.look c .isAuthenticated) fun b =>
      note (.flag b)
  | principal c => c.work stop fun c => .act (.look c .principal) fun p => note (textOrNothing p)
  | hasAuthority c name => c.work stop fun c => .act (.look c (.has name)) fun b => note (.flag b)
  | isAdministrator c => c.work stop fun c => .act (.look c .isAdministrator) fun b =>
      note (.flag b)
  | push c label i times => slot i stop fun t => pushes c t stop (fun last =>
      match last with
      | some n => .perform (.label label n) (note (.text (frameText n)))
      | none => note .nothing) none times
  | pop c label => .act (.labelled label) fun n =>
      match n with
      | some n => c.work stop fun c => .act (.pop c n) fun b => note (.flag b)
      | none => note (.text "no frame")
  | sameFrame label other => .act (.labelled label) fun (n : Option Nat) =>
      .act (.labelled other) fun (m : Option Nat) => note (.flag (n == m))
  | boundContext => .act .bound fun c => .act (.know c) fun n => note (.count n)
  | bindContext c => c.work stop fun c => .perform (.bind c) (note .nothing)
  | unbindContext => .perform .unbind (note .nothing)
  | isBound => .act .isBound fun b => note (.flag b)
  | setRoles tenant user roles =>
      .perform (.arrange (.directory (.set tenant user roles))) (note .nothing)
  | removeUser tenant user =>
      .perform (.arrange (.directory (.remove tenant user))) (note .nothing)
  | register key name => .perform (.arrange (.registry (.register key name))) (note .nothing)
  | unregister key => .act (.registered key) fun old =>
      .perform (.arrange (.registry (.unregister key))) (note (textOrNothing old))
  | fail user answer => .perform (.arrange (.disturb user answer)) (note .nothing)
  | heal user => .perform (.arrange (.settle user)) (note .nothing)
  | create tenant p => .act (.resolve (.identity tenant p)) fun o =>
      settled o note stop fun i => note (.identity i)
  | resolve tenant p => .act (.resolve (.authorities tenant p)) fun o =>
      settled o note stop fun found => note (.names found.names)
  | anonymousIdentity => note (.identity x.anonymous)
  | systemIdentity => .act (.resolve .systemIdentity) fun o =>
      settled o note stop fun i => note (.identity i)
  | systemPrincipal => .act (.resolve .systemPrincipal) fun o =>
      settled o note stop fun p => note (.text p)
  | defaultTenant => note (.tenant x.defaultTenant)
  | config => note (.config x.config)
  | identityIsAdministrator i => i.identity stop fun i => note (.flag (x.isAdministrator i))
  | debug => note (.text x.debug)
  | become c p => c.work stop fun c => .act (.become c p) fun o =>
      settled o note stop fun previous => .act (.number previous) fun n => note (.token n)

/-- Notes the ending of a call and goes on as its step handles it. -/
def handled (h : Handling) (e : Ending) (note : Work → Work) (next : Work) (stop : Ending → Work) :
    Work :=
  match e with
  | .ok _ => note next
  | .error cause => note (if h.propagates then stop (.error cause) else next)
  | .panic text => if h.catches then note next else stop (.panic text)

/-- Nested calls around a body, each remembering what the context shows after its exit. -/
def nested (place : Place) (c : Nat) (whom : Whom) (body : (Ending → Work) → Work) :
    Nat → (Ending → Work) → Work
  | 0, next => body next
  | n + 1, next => whom.work next fun assumed =>
    .call .sync ⟨c, assumed⟩ (nested place c whom body n .done) fun e =>
      match e with
      | .panic text => next (.panic text)
      | e => .perform (.mark (Place.text place) c) (next e)

/-- The report of nested calls; after a panic nothing is remembered. -/
def nestedReport (e : Ending) (unwound : List (Option String × Nat)) : Report :=
  .nested e (if e.isPanic then [] else unwound)

/-- The report of a poll. -/
def polledReport : Polled → Report
  | .pending => .text "pending"
  | .ready e => .ending e
  | .gone => .text "gone"

/-- The report of waiting for a thread. -/
def waitedReport : Waited → Report
  | .paused => .text "paused"
  | .ended e => .ending e
  | .gone => .text "gone"

mutual

/-- The work of a step at a place, and what comes after it. -/
def Step.work (x : Executor) (place : Place) : Step → Work → (Ending → Work) → Work
  | .act a, next, stop => a.work x (fun r => report place a.verb r next) stop
  | .run c whom steps last h, next, stop =>
    let after (e : Ending) := handled h e (report place "run" (.ending e)) next stop
    c.work after fun c => whom.work after fun assumed =>
      .call .sync ⟨c, assumed⟩
        (report place "work" .nothing (stepsWork x place 0 steps last .done)) after
  | .nest c whom times steps last h, next, stop =>
    let after (e : Ending) := .act (.marks (Place.text place)) fun unwound =>
      handled h e (report place "nest" (nestedReport e unwound)) next stop
    c.work stop fun c =>
      nested place c whom
        (fun stop => report place "work" .nothing (stepsWork x place 0 steps last stop)) times after
  | .future name c whom steps last, next, stop =>
    c.work stop fun c =>
      .future name
        (whom.work .done fun assumed => .call .async ⟨c, assumed⟩
          (report place "work" .nothing (stepsWork x place 0 steps last .done)) .done)
        (report place "future" .nothing next)
  | .yield, next, _ => .yield (report place "yield" .nothing next)
  | .await c whom steps last propagates, next, stop =>
    c.work stop fun c => whom.work stop fun assumed =>
      .call .async ⟨c, assumed⟩
        (report place "work" .nothing (stepsWork x place 0 steps last .done))
        fun e => handled ⟨propagates, false⟩ e (report place "await" (.ending e)) next stop
  | .poll name, next, _ => .poll name fun p => report place "poll" (polledReport p) next
  | .drop name, next, _ => .drop name fun b => report place "drop" (.flag b) next
  | .thread name inherits steps last, next, _ =>
    .thread name inherits (stepsWork x place 0 steps last .done) fun w =>
      report place "thread" (waitedReport w) next
  | .pause, next, _ => .pause fun b =>
      report place "pause" (if b then .nothing else .text "not a thread") next
  | .resume name, next, _ => .resume name fun w => report place "resume" (waitedReport w) next

/-- The work of steps in order, from an index on, inside a place, with its ending. -/
def stepsWork (x : Executor) (place : Place) (index : Nat) :
    List Step → Ending → (Ending → Work) → Work
  | [], last, stop => stop last
  | s :: r, last, stop => s.work x (index :: place) (stepsWork x place (index + 1) r last stop) stop

end

end Session
end Guise

import Guise.World

/-! # Work

A unit of work is a tree: each node is one thing it does, and its branches are how it goes on for
each answer.  So work may do anything that its answers let it decide, nest calls to any depth, and
end in any way.  What a node does to the world is `Op.perform`; calls, futures and threads are
carried out by the machine. -/

namespace Guise

/-- A look at a context that changes nothing. -/
inductive Look where
  | visible
  | principal
  | isAuthenticated
  | has (authority : String)
  | isAdministrator
  | depth

namespace Look

def Answer : Look → Type
  | visible => Option Token
  | principal => Option String
  | isAuthenticated => Bool
  | has _ => Bool
  | isAdministrator => Bool
  | depth => Nat

def answer (x : Executor) (c : Context) : (l : Look) → l.Answer
  | visible => c.visible
  | principal => c.principal
  | isAuthenticated => c.isAuthenticated
  | has authority => c.has authority
  | isAdministrator => c.visible.any fun t => x.isAdministrator t.identity
  | depth => c.depth

end Look

/-- A resolution that installs nothing. -/
inductive Query where
  | identity (tenant : Option Tenant) (principal : String)
  | authorities (tenant : Option Tenant) (principal : String)
  | systemPrincipal
  | systemIdentity

namespace Query

def Answer : Query → Type
  | identity .. => Identity
  | authorities .. => Authorities
  | systemPrincipal => String
  | systemIdentity => Identity

def answer (x : Executor) (l : Lookups) :
    (q : Query) → Traced (Outcome ResolutionError q.Answer)
  | identity tenant principal => x.identify l tenant principal
  | authorities tenant principal => x.resolve l tenant principal
  | systemPrincipal => x.systemPrincipal l
  | systemIdentity => x.system l

end Query

/-- One indivisible thing that work does, other than calls, futures and threads. -/
inductive Op where
  | look (context : Nat) (l : Look)
  /-- Puts a token, or nothing, into the visible slot. -/
  | put (context : Nat) (t : Option Token)
  | replace (context : Nat) (t : Option Token)
  | push (context : Nat) (t : Option Token)
  | pop (context : Nat) (number : Nat)
  /-- Installs a user in the visible slot, with no call that would take it back. -/
  | become (context : Nat) (principal : String)
  | mint (i : Identity)
  | newContext (t : Option Token)
  /-- The context bound to the running thread. -/
  | bound
  | bind (context : Nat)
  | unbind
  | isBound
  | resolve (q : Query)
  | arrange (edit : Lookups.Edit)
  | registered (key : String)
  /-- The number of a token, and the token with a number. -/
  | number (t : Option Token)
  | met (number : Nat)
  /-- The number of a context, and the context with a number. -/
  | know (context : Nat)
  | known (number : Nat)
  | label (name : String) (number : Nat)
  | labelled (name : String)
  | mark (place : String) (context : Nat)
  | marks (place : String)
  | note (place verb : String) (r : Report)

namespace Op

def Answer : Op → Type
  | look _ l => l.Answer
  | put .. => Unit
  | replace .. => Option Token
  | push .. => Nat
  | pop .. => Bool
  | become .. => Outcome ResolutionError (Option Token)
  | mint _ => Token
  | newContext _ => Nat
  | bound => Nat
  | bind _ => Unit
  | unbind => Unit
  | isBound => Bool
  | resolve q => Outcome ResolutionError q.Answer
  | arrange _ => Unit
  | registered _ => Option String
  | number _ => Option Nat
  | met _ => Except String Token
  | know _ => Nat
  | known _ => Except String Nat
  | label .. => Unit
  | labelled _ => Option Nat
  | mark .. => Unit
  | marks _ => List (Option String × Nat)
  | note .. => Unit

/-- Installs a user in the visible slot of a context and gives what was there. -/
def performBecome (x : Executor) (w : World) (c : Nat) (principal : String) :
    Outcome ResolutionError (Option Token) × World :=
  let r := x.identify w.lookups none principal
  let w := w.record r.signs
  match r.value with
  | .ok i =>
    let (t, w) := w.mint i
    let (previous, y) := (w.context c).replace (some t)
    (.ok previous, (w.setContext c y).tell (.became principal))
  | .error e => (.error e, w.tell (.resolutionFailed e))
  | .panic text => (.panic text, w)

/-- The answer, and the world after it. -/
def perform (x : Executor) (w : World) : (op : Op) → op.Answer × World
  | look c l => (l.answer x (w.context c), w)
  | put c t => ((), w.setContext c ((w.context c).put t))
  | replace c t =>
    let r := (w.context c).replace t
    (r.1, w.setContext c r.2)
  | push c t =>
    let r := (w.context c).push t
    (r.1, w.setContext c r.2)
  | pop c n =>
    let r := (w.context c).pop n
    (r.1, w.setContext c r.2)
  | become c principal => performBecome x w c principal
  | mint i => w.mint i
  | newContext t => w.addContext t
  | bound => w.bound
  | bind c => ((), w.setStrand { w.strand with bound := some c })
  | unbind => ((), w.setStrand { w.strand with bound := none })
  | isBound => (w.strand.bound.isSome, w)
  | resolve q =>
    let r := q.answer x w.lookups
    (r.value, w.record r.signs)
  | arrange edit => ((), { w with lookups := edit.apply w.lookups })
  | registered key => (w.lookups.registry.name? key, w)
  | number t => w.numberSlot t
  | met n => (w.tokenAt n, w)
  | know c => w.know c
  | known n => (w.contextAt n, w)
  | label name n => ((), { w with labels := w.labels.put name n })
  | labelled name => (w.labels.find? name, w)
  | mark place c => ((), w.markUnwound place c)
  | marks place => ((w.unwound.find? place).getD [], w)
  | note place verb r => ((), w.note place verb r)

end Op

/-- Whom a call runs its work as. -/
inductive Assumed where
  | system
  | anonymous
  | user (principal : String)
  | identity (i : Identity)

/-- A call: the context in which it installs an identity, and which one. -/
structure Call where
  context : Nat
  assumed : Assumed

/-- Whether a call runs its work at once, or may be suspended in it. -/
inductive Mode where
  | sync
  | async
  deriving DecidableEq

inductive Polled where
  | pending
  | ready (e : Ending)
  | gone

inductive Waited where
  | paused
  | ended (e : Ending)
  | gone

/-- A unit of work. -/
inductive Work where
  | done (e : Ending)
  | act (op : Op) (next : op.Answer → Work)
  /-- Runs a body under another identity. -/
  | call (mode : Mode) (c : Call) (body : Work) (next : Ending → Work)
  /-- Makes a future of a body, in place of any other of that name. -/
  | future (name : String) (body : Work) (next : Work)
  | poll (name : String) (next : Polled → Work)
  /-- Drops a future; tells whether it was unfinished. -/
  | drop (name : String) (next : Bool → Work)
  /-- Suspends the future that is being polled. -/
  | yield (next : Work)
  /-- Starts a thread and waits until it pauses or ends; it may inherit the bound context. -/
  | thread (name : String) (inherits : Bool) (body : Work) (next : Waited → Work)
  /-- Hands control back to whoever waits for the thread; tells whether there is one. -/
  | pause (next : Bool → Work)
  | resume (name : String) (next : Waited → Work)

end Guise

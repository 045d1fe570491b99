import Guise.Journal

/-! # The world of a program

Everything that work can read or change: the contexts, each thread's binding and entered spans, the
collaborators, and the journal.  A function here is one indivisible change. -/

namespace Guise

/-- What belongs to one thread: the context bound to it and the spans it has entered, the latest
first. -/
structure Strand where
  bound : Option Nat
  entered : List Span
  deriving DecidableEq

def Strand.fresh : Strand := ⟨none, []⟩

/-- The state that work acts on.  Contexts, threads and tokens are numbered in the order in which
they are made; a context or thread that does not exist yet is empty. -/
structure World where
  contexts : Table Nat Context
  contextCount : Nat
  threads : Table Nat Strand
  threadCount : Nat
  /-- The thread that runs. -/
  running : Nat
  tokenCount : Nat
  lookups : Lookups
  /-- Whether the log takes spans. -/
  spansOn : Bool
  journal : List Entry
  /-- The tokens met so far, in order. -/
  met : List Token
  /-- The contexts known so far, in order. -/
  known : List Nat
  /-- The frame numbers behind labels. -/
  labels : Table String Nat
  /-- What nested calls showed after their exits, by the place of their step. -/
  unwound : Table String (List (Option String × Nat))

namespace World

/-- A world with one context and one thread. -/
def start (first : Context) (tokens : Nat) (l : Lookups) (spansOn : Bool) : World where
  contexts := [(0, first)]
  contextCount := 1
  threads := []
  threadCount := 1
  running := 0
  tokenCount := tokens
  lookups := l
  spansOn := spansOn
  journal := []
  met := []
  known := [0]
  labels := []
  unwound := []

def context (w : World) (c : Nat) : Context := (w.contexts.find? c).getD .empty

def thread (w : World) (t : Nat) : Strand := (w.threads.find? t).getD .fresh

def strand (w : World) : Strand := w.thread w.running

def setContext (w : World) (c : Nat) (x : Context) : World :=
  { w with contexts := w.contexts.put c x }

def setThread (w : World) (t : Nat) (s : Strand) : World := { w with threads := w.threads.put t s }

def setStrand (w : World) (s : Strand) : World := w.setThread w.running s

@[simp] theorem context_setContext (w : World) (c d : Nat) (x : Context) :
    (w.setContext c x).context d = if c = d then x else w.context d := by
  simp only [context, setContext, Table.find?_put]
  split <;> simp

@[simp] theorem thread_setThread (w : World) (t u : Nat) (s : Strand) :
    (w.setThread t s).thread u = if t = u then s else w.thread u := by
  simp only [thread, setThread, Table.find?_put]
  split <;> simp

/-! ### The log -/

/-- The current span of the running thread, empty when there is none. -/
def currentSpan (w : World) : Span := w.strand.entered.headD []

def write (w : World) (e : Entry) : World := { w with journal := w.journal ++ [e] }

/-- Tells the log something under the current span. -/
def tell (w : World) (n : Notice) : World :=
  w.write (.told n w.currentSpan.reverse (w.strand.entered.filterMap List.head?))

/-- Writes down what happened while an identity was resolved. -/
def record (w : World) (signs : List Sign) : World :=
  signs.foldl (fun w s => match s with
    | .asked q => w.write (.asked q)
    | .told n => w.tell n) w

def enterSpan (w : World) : Option Span → World
  | none => w
  | some s => w.setStrand { w.strand with entered := s :: w.strand.entered }

/-- Leaves the span entered last; without one nothing happens. -/
def exitSpan (w : World) : Option Span → World
  | none => w
  | some _ => w.setStrand { w.strand with entered := w.strand.entered.tail }

/-- The span of a call made now, if the log takes spans. -/
def newSpan (w : World) (i : Identity) : Option Span :=
  if w.spansOn then some (⟨i.kind, i.principal⟩ :: w.currentSpan) else none

/-! ### Contexts, tokens and threads -/

def mint (w : World) (i : Identity) : Token × World :=
  (⟨w.tokenCount, i⟩, { w with tokenCount := w.tokenCount + 1 })

def addContext (w : World) (t : Option Token) : Nat × World :=
  (w.contextCount,
    { w.setContext w.contextCount (.ofToken t) with contextCount := w.contextCount + 1 })

/-- The context bound to the running thread; an unbound thread is bound to a new empty one. -/
def bound (w : World) : Nat × World :=
  match w.strand.bound with
  | some c => (c, w)
  | none =>
    let (c, w) := w.addContext none
    (c, w.setStrand { w.strand with bound := some c })

def startThread (w : World) (s : Strand) : World :=
  { w.setThread w.threadCount s with threadCount := w.threadCount + 1, running := w.threadCount }

def switchTo (w : World) (thread : Nat) : World := { w with running := thread }

/-! ### The observer -/

/-- The number of a token, met now if not before. -/
def number (w : World) (t : Token) : Nat × World :=
  match w.met.findIdx? (·.serial == t.serial) with
  | some n => (n, w)
  | none => (w.met.length, { w with met := w.met ++ [t] })

/-- The number of what a slot holds. -/
def numberSlot (w : World) : Option Token → Option Nat × World
  | none => (none, w)
  | some t => let (n, w) := w.number t; (some n, w)

/-- The number of a context, known from now on. -/
def know (w : World) (c : Nat) : Nat × World :=
  match w.known.findIdx? (· == c) with
  | some n => (n, w)
  | none => (w.known.length, { w with known := w.known ++ [c] })

/-- The reason for which nothing has a number. -/
def outOfRange (size number : Nat) : String :=
  "index out of bounds: the len is " ++ toString size ++ " but the index is " ++ toString number

def tokenAt (w : World) (n : Nat) : Except String Token :=
  match w.met[n]? with
  | some t => .ok t
  | none => .error (outOfRange w.met.length n)

def contextAt (w : World) (n : Nat) : Except String Nat :=
  match w.known[n]? with
  | some c => .ok c
  | none => .error (outOfRange w.known.length n)

/-- What contexts show, and how deep they are. -/
def survey (w : World) : List Nat → List (Option Nat × Nat) × World
  | [] => ([], w)
  | c :: r =>
    let (n, w) := w.numberSlot (w.context c).visible
    let (l, w) := w.survey r
    ((n, (w.context c).depth) :: l, w)

def note (w : World) (place verb : String) (r : Report) : World :=
  let (state, w) := w.survey w.known
  w.write (.note ⟨place, verb, r, state⟩)

/-- Remembers what a context shows after the exit of a nested call. -/
def markUnwound (w : World) (place : String) (c : Nat) : World :=
  let x := w.context c
  let before := (w.unwound.find? place).getD []
  { w with unwound := w.unwound.put place (before ++ [(x.principal, x.depth)]) }

end World
end Guise

import Guise.Proofs.ByHand

/-!
# Removals in any order

A schedule is a list of pushes and pops in one context. A pop filters the frames by their numbers, and a
push puts a frame of a new number on top, so a pop passes over every push that comes after it and over
every other pop: what a schedule leaves depends on its pushes in their order and on the set of numbers
that it pops (`Context.WellNumbered.play_eq`). It takes only that no number is popped before it was handed
out (`Context.Timely`), because a push might otherwise be given a number that the schedule has popped.
-/

namespace Guise

namespace Context

inductive Move where
  | push (t : Option Token)
  | pop (number : Nat)
  deriving DecidableEq

namespace Move

def apply (y : Context) : Move → Context
  | push t => (y.push t).2
  | pop n => (y.pop n).2

def pushed? : Move → Option (Option Token)
  | push t => some t
  | pop _ => none

/-- The number that a pop is about, whether or not a frame has it. -/
def popped? : Move → Option Nat
  | push _ => none
  | pop n => some n

end Move

variable {y : Context} {s s' : List Move} {next : Nat}

/-- The context after a schedule. -/
def play (y : Context) (s : List Move) : Context := s.foldl Move.apply y

def pushes (s : List Move) : List (Option Token) := s.filterMap Move.pushed?

def pops (s : List Move) : List Nat := s.filterMap Move.popped?

@[simp] theorem pushes_push (t : Option Token) (s : List Move) :
    pushes (.push t :: s) = t :: pushes s := rfl

@[simp] theorem pushes_pop (n : Nat) (s : List Move) : pushes (.pop n :: s) = pushes s := rfl

@[simp] theorem pops_push (t : Option Token) (s : List Move) : pops (.push t :: s) = pops s := rfl

@[simp] theorem pops_pop (n : Nat) (s : List Move) : pops (.pop n :: s) = n :: pops s := rfl

/-- Each pop of a schedule is about a number that was handed out before it, where numbers from `next` on
are still to be handed out. -/
def Timely : Nat → List Move → Prop
  | _, [] => True
  | next, .push _ :: s => Timely (next + 1) s
  | next, .pop n :: s => n < next ∧ Timely next s

instance Timely.decidable : (next : Nat) → (s : List Move) → Decidable (Timely next s)
  | _, [] => .isTrue trivial
  | next, .push _ :: s => Timely.decidable (next + 1) s
  | next, .pop n :: s =>
    have := Timely.decidable next s
    inferInstanceAs (Decidable (n < next ∧ Timely next s))

/-- Frames for values in order, numbered from `next` on. -/
def framesFrom (next : Nat) (ts : List (Option Token)) : List Frame :=
  (ts.zipIdx next).map fun p => ⟨p.2, p.1⟩

@[simp] theorem framesFrom_cons (next : Nat) (t : Option Token) (ts : List (Option Token)) :
    framesFrom next (t :: ts) = ⟨next, t⟩ :: framesFrom (next + 1) ts := by
  simp [framesFrom]

/-- Popping a number that was handed out passes over the frames that are still to come. -/
theorem filter_framesFrom {n : Nat} (hn : n < next) (ts : List (Option Token)) :
    (framesFrom next ts).filter (·.number ≠ n) = framesFrom next ts := by
  refine List.filter_eq_self.2 fun f hf => decide_eq_true ?_
  obtain ⟨p, hp, rfl⟩ := List.mem_map.1 hf
  have hle : next ≤ p.2 := List.le_snd_of_mem_zipIdx hp
  show p.2 ≠ n
  omega

theorem play_append (y : Context) (s s' : List Move) : y.play (s ++ s') = (y.play s).play s' :=
  List.foldl_append

theorem play_next (y : Context) (s : List Move) : (y.play s).next = y.next + (pushes s).length := by
  induction s generalizing y with
  | nil => rfl
  | cons a s ih =>
    refine (ih (a.apply y)).trans ?_
    cases a with
    | push t => simp [Move.apply, push, Nat.add_assoc, Nat.add_comm 1]
    | pop n => simp [Move.apply, pop_next]

/-- A schedule leaves the frames that it finds and those that it pushes on top of them, but for the
numbers that it pops. -/
theorem WellNumbered.play_eq (hy : y.WellNumbered) (hs : Timely y.next s) : y.play s =
    { y with
      frames := ((framesFrom y.next (pushes s)).reverse ++ y.frames).filter (·.number ∉ pops s)
      next := y.next + (pushes s).length } := by
  induction s generalizing y with
  | nil => simp [play, pushes, pops, framesFrom]
  | cons a s ih =>
    cases a with
    | push t =>
      have hnext : y.next + ((pushes s).length + 1) = y.next + 1 + (pushes s).length := by omega
      refine (ih (hy.push t) hs).trans ?_
      rw [pushes_push, pops_push, framesFrom_cons, List.reverse_cons, List.append_assoc,
        List.length_cons, hnext]
      rfl
    | pop n =>
      obtain ⟨hn, hs⟩ := hs
      have hnext : (y.pop n).2.next = y.next := y.pop_next n
      -- the pop may as well come last, since no later frame has its number
      have hframes : (framesFrom y.next (pushes s)).reverse ++ (y.pop n).2.frames =
          ((framesFrom y.next (pushes s)).reverse ++ y.frames).filter (·.number ≠ n) := by
        rw [hy.pop_eq, List.filter_append, List.filter_reverse, filter_framesFrom hn]
      refine (ih (hy.pop n) (hnext ▸ hs)).trans ?_
      rw [hnext, hframes, List.filter_filter, y.pop_base, pushes_pop, pops_pop]
      congr 2
      funext f
      simp [Bool.and_comm]

/-- Schedules with the same pushes in the same order, and the same numbers to pop, leave the same. -/
theorem WellNumbered.play_congr (hy : y.WellNumbered) (hs : Timely y.next s) (hs' : Timely y.next s')
    (hpushes : pushes s' = pushes s) (hpops : ∀ n, n ∈ pops s' ↔ n ∈ pops s) :
    y.play s' = y.play s := by
  rw [hy.play_eq hs', hy.play_eq hs, hpushes]
  simp only [hpops]

/-- What a schedule leaves, in the order of the pushes. -/
theorem WellNumbered.frames_play (hy : y.WellNumbered) (hs : Timely y.next s) :
    (y.play s).frames.reverse =
      (y.frames.reverse ++ framesFrom y.next (pushes s)).filter (·.number ∉ pops s) := by
  rw [hy.play_eq hs, ← List.filter_reverse, List.reverse_append, List.reverse_reverse]

end Context

/-! ### Runs -/

namespace Op
variable {op : Op} {c : Nat}

/-- The move that an operation makes in a context. -/
def move? (c : Nat) : Op → Option Context.Move
  | .push d t => if d = c then some (.push t) else none
  | .pop d n => if d = c then some (.pop n) else none
  | _ => none

theorem stacked_of_move_none (h : op.move? c = none) : op.stacked? ≠ some c := by
  cases op with
  | push d t | pop d n =>
    rintro hd
    rw [move?, if_pos (Option.some.inj hd)] at h
    cases h
  | _ => exact nofun

/-- An operation that makes a move does that to the context, and a push answers the next number. -/
theorem perform_move (x : Executor) (w : World) {a : Context.Move} (h : op.move? c = some a) :
    (op.perform x w).2.context c = a.apply (w.context c) ∧
      pushedIn c [.answered op (op.perform x w).1] =
        List.range' (w.context c).next (Context.pushes [a]).length := by
  cases op with
  | push d t =>
    obtain ⟨rfl, ha⟩ := Option.ite_none_right_eq_some.1 h
    cases ha
    exact ⟨by simp [perform, Context.Move.apply], pushedIn_push d t _⟩
  | pop d n =>
    obtain ⟨rfl, ha⟩ := Option.ite_none_right_eq_some.1 h
    cases ha
    exact ⟨by simp [perform, Context.Move.apply], rfl⟩
  | _ => cases h

end Op

namespace Machine
variable {x x' : Executor} {m m' : Machine} {c c' n n' : Nat}

/-- The push or pop by hand that the next step makes in a context. -/
def move? (c : Nat) (m : Machine) : Option Context.Move :=
  match m.work with
  | .act op _ => op.move? c
  | _ => none

/-- The pushes and pops by hand that so many steps make in a context, in order. -/
def moves (x : Executor) (c : Nat) (m : Machine) (n : Nat) : List Context.Move :=
  (List.range n).filterMap fun k => (m.run x k).move? c

/-- The next step does nothing to a context but to push or pop there by hand. -/
def Plays (x : Executor) (c : Nat) (m : Machine) : Prop :=
  m.move? c = none → (m.step x).world.context c = m.world.context c

instance (x : Executor) (c : Nat) (m : Machine) : Decidable (m.Plays x c) :=
  inferInstanceAs (Decidable (_ → _))

theorem moves_succ (x : Executor) (c : Nat) (m : Machine) (n : Nat) :
    m.moves x c (n + 1) = m.moves x c n ++ ((m.run x n).move? c).toList :=
  filterMap_run_succ (move? c) x m n

theorem pushedIn_observed_none (h : m.move? c = none) : pushedIn c (m.observed x) = [] := by
  unfold move? at h
  unfold observed
  split
  · rename_i op next _ hm
    rw [hm] at h
    exact (pushedIn_other (Op.stacked_of_move_none h) _).1
  · rfl
  · split <;> rfl
  · rfl

/-- A step plays its move, if it makes one, and hands out the number of the frame that it pushes. -/
theorem Plays.step (h : m.Plays x c) :
    (m.step x).world.context c = (m.world.context c).play (m.move? c).toList ∧
      pushedIn c (m.observed x) =
        List.range' (m.world.context c).next (Context.pushes (m.move? c).toList).length := by
  cases hmove : m.move? c with
  | none => exact ⟨h hmove, pushedIn_observed_none hmove⟩
  | some a =>
    obtain ⟨work, stack, w, futures, paused⟩ := m
    cases work with
    | act op next => exact Op.perform_move x w hmove
    | _ => cases hmove

/-- A run plays its moves, and hands out the numbers of the frames that it pushes, one after another. -/
theorem run_plays (h : ∀ k < n, (m.run x k).Plays x c) :
    (m.run x n).world.context c = (m.world.context c).play (m.moves x c n) ∧
      pushedIn c (m.trace x n) =
        List.range' (m.world.context c).next (Context.pushes (m.moves x c n)).length := by
  induction n with
  | zero => exact ⟨rfl, rfl⟩
  | succ n ih =>
    obtain ⟨hctx, hpushed⟩ := ih fun k hk => h k (Nat.lt_succ_of_lt hk)
    obtain ⟨hstep, hobserved⟩ := (h n (Nat.lt_succ_self n)).step
    have htrace : m.trace x (n + 1) = m.trace x n ++ (m.run x n).observed x := by
      rw [trace_add, trace, trace, List.append_nil]
    have hpushes : Context.pushes (m.moves x c (n + 1)) =
        Context.pushes (m.moves x c n) ++ Context.pushes ((m.run x n).move? c).toList := by
      rw [moves_succ]
      exact List.filterMap_append
    refine ⟨?_, ?_⟩
    · rw [run_succ', hstep, hctx, moves_succ, Context.play_append]
    · rw [htrace, pushedIn_append, hpushed, hobserved, hctx, Context.play_next, hpushes,
        List.length_append, List.range'_append_1]

/-- The order of removals does not matter. Two runs that find a context in the same state, and do nothing
there but push the same values in the same order and pop the same numbers, each once it was handed out, are
handed the same numbers and leave the same: the base as it was, and in the order of the pushes those frames,
found or pushed, that were not popped, each with its value. -/
theorem removals_commute (x x' : Executor) (m m' : Machine) (c c' n n' : Nat)
    (hr : (m.world.context c).Reachable) (hsame : m'.world.context c' = m.world.context c)
    (hplays : ∀ k < n, (m.run x k).Plays x c) (hplays' : ∀ k < n', (m'.run x' k).Plays x' c')
    (ht : Context.Timely (m.world.context c).next (m.moves x c n))
    (ht' : Context.Timely (m.world.context c).next (m'.moves x' c' n'))
    (hpushes : Context.pushes (m'.moves x' c' n') = Context.pushes (m.moves x c n))
    (hpops : ∀ number, number ∈ Context.pops (m'.moves x' c' n') ↔
      number ∈ Context.pops (m.moves x c n)) :
    let y := m.world.context c
    let z := (m.run x n).world.context c
    let pushed := Context.pushes (m.moves x c n)
    let popped := Context.pops (m.moves x c n)
    pushedIn c (m.trace x n) = List.range' y.next pushed.length ∧
    pushedIn c' (m'.trace x' n') = pushedIn c (m.trace x n) ∧
    (m'.run x' n').world.context c' = z ∧
    z.base = y.base ∧ z.next = y.next + pushed.length ∧
    z.frames.reverse =
      (y.frames.reverse ++ Context.framesFrom y.next pushed).filter (·.number ∉ popped) := by
  intro y z pushed popped
  have hy : y.WellNumbered := hr.wellNumbered
  obtain ⟨hctx, hnumbers⟩ := run_plays hplays
  obtain ⟨hctx', hnumbers'⟩ := run_plays hplays'
  rw [hsame] at hctx' hnumbers'
  have hz : z = y.play (m.moves x c n) := hctx
  refine ⟨hnumbers, ?_, ?_, ?_, ?_, ?_⟩
  · rw [hnumbers', hnumbers, hpushes]
  · rw [hctx', hz]
    exact hy.play_congr ht ht' hpushes hpops
  · rw [hz, hy.play_eq ht]
  · rw [hz, Context.play_next]
  · rw [hz, hy.frames_play ht]

/-- Work that pushes two frames, and takes away the first of them and one that it found as soon as it can. -/
def removesAtOnce : Work :=
  .act (.pop 0 0) fun _ => .act (.push 0 none) fun first => .act (.pop 0 first) fun _ =>
  .act (.push 0 (some ⟨0, (Executor.ofConfig .default).anonymous⟩)) fun _ => .done (.ok .null)

/-- Work that pushes the same, and takes away the same in another order at its end, and once more. -/
def removesAtEnd : Work :=
  .act (.push 0 none) fun first =>
  .act (.push 0 (some ⟨0, (Executor.ofConfig .default).anonymous⟩)) fun _ =>
  .act (.pop 0 first) fun _ => .act (.pop 0 0) fun _ => .act (.pop 0 first) fun _ => .done (.ok .null)

theorem removals_commute_atOnce_atEnd :
    let x := Executor.ofConfig .default
    let y := ((Context.ofToken none).push none).2
    let m := start removesAtOnce (.bare y)
    let m' := start removesAtEnd (.bare y)
    pushedIn 0 (m'.trace x 5) = pushedIn 0 (m.trace x 4) ∧
      (m'.run x 5).world.context 0 = (m.run x 4).world.context 0 ∧
      ((m.run x 4).world.context 0).frames = [⟨2, some ⟨0, x.anonymous⟩⟩] := by
  intro x y m m'
  obtain ⟨-, hnumbers, hctx, -, -, hframes⟩ := removals_commute x x m m' 0 0 4 5 (.push none (.new none))
    rfl (by decide) (by decide) (by decide) (by decide) (by decide) (by
      have h : Context.pops (m'.moves x 0 5) = [1, 0, 1] := by decide
      have h' : Context.pops (m.moves x 0 4) = [0, 1] := by decide
      rw [h, h']
      simp [or_comm])
  refine ⟨hnumbers, hctx, List.reverse_inj.1 (hframes.trans ?_)⟩
  decide

end Machine
end Guise

import Guise.Proofs.Changes

/-!
# Parties

Calls are made by parties: threads, and futures, whichever thread polls them. `Machine.tasks` lists
what each party has in progress as the frames that its calls hold, the innermost first, wherever the
machine keeps them: on its stack, in a suspended future, in a paused thread. Polling, suspending,
pausing and resuming only move tasks about, so up to order a step does one of four things
(`Machine.Turn`): it performs an operation, a call of the running party installs a frame, a thread
begins, or frames are released. Each released frame is popped from its own context, and nothing else
is (`Machine.Released`).
-/

namespace Guise

namespace Table
variable {κ α : Type} [DecidableEq κ] {t : Table κ α} {k : κ} {a : α}

theorem erase_eq_self (h : t.find? k = none) : t.erase k = t := by
  induction t with
  | nil => rfl
  | cons e r ih =>
    by_cases he : e.1 = k
    · simp [find?, he] at h
    · rw [erase, List.filter_cons_of_pos (by simpa using he)]
      exact congrArg (e :: ·) (ih (by simpa [find?, he] using h))

/-- What is found under a key stands in the table once, beside what is left without the key. -/
theorem perm_cons_erase (hk : (t.map Prod.fst).Nodup) (h : t.find? k = some a) :
    t.Perm ((k, a) :: t.erase k) := by
  induction t with
  | nil => cases h
  | cons e r ih =>
    obtain ⟨hnot, hr⟩ := List.nodup_cons.1 hk
    by_cases he : e.1 = k
    · have hself : Table.erase r k = r := List.filter_eq_self.2 fun e' he' =>
        decide_eq_true fun hk' => hnot (he ▸ hk' ▸ List.mem_map_of_mem he')
      obtain rfl : e.2 = a := by simpa [find?, he] using h
      rw [erase, List.filter_cons_of_neg (by simpa using he)]
      show List.Perm (e :: r) ((k, e.2) :: Table.erase r k)
      rw [hself, ← he]
    · rw [erase, List.filter_cons_of_pos (by simpa using he)]
      exact ((ih hr (by simpa [find?, he] using h)).cons e).trans (.swap ..)

theorem nodup_erase (hk : (t.map Prod.fst).Nodup) (k : κ) : ((t.erase k).map Prod.fst).Nodup :=
  hk.sublist (List.filter_sublist.map _)

theorem nodup_put (hk : (t.map Prod.fst).Nodup) (k : κ) (a : α) :
    ((t.put k a).map Prod.fst).Nodup := by
  refine List.nodup_cons.2 ⟨fun hmem => ?_, nodup_erase hk k⟩
  obtain ⟨e, he, hek⟩ := List.mem_map.1 hmem
  exact of_decide_eq_true (List.mem_filter.1 he).2 hek

end Table

/-! ### Tasks -/

/-- Whoever makes calls. -/
inductive Party where
  | thread (n : Nat)
  | future (name : String)
  deriving DecidableEq

/-- What a party has in progress: the frames of its calls, the innermost first. -/
structure Task where
  party : Party
  holds : List Hold

namespace Task

/-- The frames of a task, each with its party. -/
def owned (k : Task) : List (Party × Hold) := k.holds.map (k.party, ·)

/-- The task inside one more call. -/
def enter (k : Task) (h : Hold) : Task := { k with holds := h :: k.holds }

end Task

/-- The task that runs above the levels of a thread, and the tasks below it. -/
def tasksIn (t : Nat) : List Level → Task × List Task
  | [] => (⟨.thread t, []⟩, [])
  | .running _ a :: r => ((tasksIn t r).1.enter a.hold, (tasksIn t r).2)
  | .polling name _ :: r => (⟨.future name, []⟩, (tasksIn t r).1 :: (tasksIn t r).2)
  | .waiting _ waiter _ :: r => (⟨.thread t, []⟩, (tasksIn waiter r).1 :: (tasksIn waiter r).2)

theorem tasksIn_polling (t : Nat) (calls : List Activation) (name : String) (next : Polled → Work)
    (r : List Level) : tasksIn t (calls.map (.running .async) ++ .polling name next :: r) =
      (⟨.future name, calls.map (·.hold)⟩, (tasksIn t r).1 :: (tasksIn t r).2) := by
  induction calls with
  | nil => rfl
  | cons a calls ih => simp [tasksIn, ih, Task.enter]

theorem tasksIn_waiting (t : Nat) (ls : List Level) (name : String) (waiter : Nat)
    (next : Waited → Work) (r : List Level) : tasksIn t (ls ++ .waiting name waiter next :: r) =
      ((tasksIn t ls).1, (tasksIn t ls).2 ++ (tasksIn waiter r).1 :: (tasksIn waiter r).2) := by
  induction ls generalizing t with
  | nil => rfl
  | cons l ls ih => cases l <;> simp [tasksIn, ih]

/-- The task of a suspended future. -/
def suspended (e : String × Future) : Task := ⟨.future e.1, e.2.calls.map (·.hold)⟩

/-- The tasks of a paused thread. -/
def Paused.tasks (p : Paused) : List Task :=
  (tasksIn p.thread p.levels).1 :: (tasksIn p.thread p.levels).2

/-- The frames among these that belong to a context. -/
def framesOn (d : Nat) (hs : List Hold) : List Nat := (hs.filter (·.context = d)).map (·.frame)

theorem framesOn_cons (d : Nat) (h : Hold) (hs : List Hold) :
    framesOn d (h :: hs) = if h.context = d then h.frame :: framesOn d hs else framesOn d hs := by
  unfold framesOn
  split
  · rw [List.filter_cons_of_pos (by simpa)]; rfl
  · rw [List.filter_cons_of_neg (by simpa)]

theorem framesOn_append (d : Nat) (hs hs' : List Hold) :
    framesOn d (hs ++ hs') = framesOn d hs ++ framesOn d hs' := by
  simp [framesOn]

theorem mem_framesOn {d n : Nat} {hs : List Hold} : n ∈ framesOn d hs ↔ ⟨d, n⟩ ∈ hs := by
  simp only [framesOn, List.mem_map, List.mem_filter, decide_eq_true_eq]
  exact ⟨fun ⟨h, ⟨hm, hd⟩, hn⟩ => hd ▸ hn ▸ hm, fun h => ⟨_, ⟨h, rfl⟩, rfl⟩⟩

namespace Machine

/-- The task whose work is in hand. -/
def current (m : Machine) : Task := (tasksIn m.world.running m.stack).1

/-- The tasks below it and those that are suspended. -/
def others (m : Machine) : List Task :=
  (tasksIn m.world.running m.stack).2 ++ m.futures.map suspended ++ m.paused.flatMap Paused.tasks

/-- What all parties have in progress. -/
def tasks (m : Machine) : List Task := m.current :: m.others

/-- The frames that calls in progress hold, each with the party of its call. -/
def owned (m : Machine) : List (Party × Hold) := m.tasks.flatMap Task.owned

theorem splitPoll_eq {ls rest : List Level} {calls : List Activation} {name : String}
    {next : Polled → Work} (h : splitPoll ls = some (calls, name, next, rest)) :
    ls = calls.map (.running .async) ++ .polling name next :: rest := by
  induction ls generalizing calls with
  | nil => cases h
  | cons l ls ih =>
    cases l with
    | running mode a =>
      cases mode with
      | sync => cases h
      | async =>
        obtain ⟨⟨calls', rest'⟩, h', he⟩ := Option.map_eq_some_iff.1 h
        cases he
        exact congrArg (_ :: ·) (ih h')
    | polling n p => cases h; rfl
    | waiting => cases h

theorem splitThread_eq {ls levels rest : List Level} {name : String} {waiter : Nat}
    {next : Waited → Work} (h : splitThread ls = some (levels, name, waiter, next, rest)) :
    ls = levels ++ .waiting name waiter next :: rest := by
  induction ls generalizing levels with
  | nil => cases h
  | cons l ls ih =>
    cases l with
    | waiting => cases h; rfl
    | running | polling =>
      obtain ⟨⟨levels', rest'⟩, h', he⟩ := Option.map_eq_some_iff.1 h
      cases he
      exact congrArg (_ :: ·) (ih h')

end Machine
end Guise

import Guise.Proofs.Strands
import Guise.Session.Run

/-!
# Every session ends

`Work.Within w n`: the work takes at most `n` steps, whatever it is answered; the bodies that it makes
futures and threads of, and what comes after a call, a poll or a thread, are counted with it. The parts of
a machine share a bound (`Machine.Within`): the work in hand, the levels below it, the suspended futures and
the paused threads. A step only moves parts about and uses up one of the steps (`Machine.Within.step`), so a
machine ends within its bound (`Machine.ended_of_within`).

The bound that is counted from the text of a session is one for its work (`Session.stepsWork_within`). So the
outcome of a session is an ending (`Session.outcome_ended`), and more steps make no other
(`Session.run_eq_outcome`).
-/

namespace Guise

/-- The work takes at most so many steps, whatever it is answered. -/
def Work.Within : Work → Nat → Prop
  | .done _, _ => True
  | .act _ next, n => ∃ k, k < n ∧ ∀ a, (next a).Within k
  -- one step to begin the call, and one to leave it
  | .call _ _ body next, n => ∃ b k, b + k + 1 < n ∧ body.Within b ∧ ∀ e, (next e).Within k
  | .future _ body next, n => ∃ b k, b + k < n ∧ body.Within b ∧ next.Within k
  -- the body is counted where the future was made
  | .poll _ next, n => ∃ k, k + 1 < n ∧ ∀ p, (next p).Within k
  | .drop _ next, n => ∃ k, k < n ∧ ∀ b, (next b).Within k
  | .yield next, n => ∃ k, k < n ∧ next.Within k
  | .thread _ _ body next, n => ∃ b k, b + k + 1 < n ∧ body.Within b ∧ ∀ w, (next w).Within k
  | .pause next, n => ∃ k, k < n ∧ ∀ b, (next b).Within k
  | .resume _ next, n => ∃ k, k + 1 < n ∧ ∀ w, (next w).Within k

theorem Work.Within.mono {w : Work} {n n' : Nat} (h : w.Within n) (hn : n ≤ n') : w.Within n' := by
  cases w with
  | done => trivial
  | act | poll | drop | yield | pause | resume =>
    obtain ⟨k, hk, hw⟩ := h
    exact ⟨k, Nat.lt_of_lt_of_le hk hn, hw⟩
  | call | future | thread =>
    obtain ⟨b, k, hk, hw⟩ := h
    exact ⟨b, k, Nat.lt_of_lt_of_le hk hn, hw⟩

/-- Each item of a list has a share of the bound. -/
def Shared {α : Type} (P : α → Nat → Prop) : List α → Nat → Prop
  | [], _ => True
  | a :: l, n => ∃ k r, k + r ≤ n ∧ P a k ∧ Shared P l r

namespace Shared
variable {α : Type} {P : α → Nat → Prop} {l l' : List α} {n n' : Nat}

theorem mono (h : Shared P l n) (hn : n ≤ n') : Shared P l n' := by
  cases l with
  | nil => trivial
  | cons a l =>
    obtain ⟨k, r, hkr, hl⟩ := h
    exact ⟨k, r, Nat.le_trans hkr hn, hl⟩

theorem append_iff : Shared P (l ++ l') n ↔ ∃ k r, k + r ≤ n ∧ Shared P l k ∧ Shared P l' r := by
  induction l generalizing n with
  | nil =>
    constructor
    · exact fun h => ⟨0, n, Nat.le_of_eq (Nat.zero_add n), trivial, h⟩
    · rintro ⟨k, r, hkr, -, h⟩
      exact h.mono (by omega)
  | cons a l ih =>
    constructor
    · rintro ⟨k, r, hkr, ha, h⟩
      obtain ⟨k', r', hkr', hl, hl'⟩ := ih.1 h
      exact ⟨k + k', r', by omega, ⟨k, k', Nat.le_refl _, ha, hl⟩, hl'⟩
    · rintro ⟨k, r, hkr, ⟨k', r', hkr', ha, hl⟩, hl'⟩
      exact ⟨k', r' + r, by omega, ha, ih.2 ⟨r', r, Nat.le_refl _, hl, hl'⟩⟩

theorem sublist (h : Shared P l' n) (hl : l.Sublist l') : Shared P l n := by
  induction hl generalizing n with
  | slnil => trivial
  | cons a _ ih =>
    obtain ⟨k, r, hkr, -, h⟩ := h
    exact ih (h.mono (by omega))
  | cons_cons a _ ih =>
    obtain ⟨k, r, hkr, ha, h⟩ := h
    exact ⟨k, r, hkr, ha, ih h⟩

theorem map {g : α → α} (h : Shared P l n) (hg : ∀ {a n}, P a n → P (g a) n) : Shared P (l.map g) n := by
  induction l generalizing n with
  | nil => trivial
  | cons a l ih =>
    obtain ⟨k, r, hkr, ha, hl⟩ := h
    exact ⟨k, r, hkr, hg ha, ih hl⟩

theorem perm (h : Shared P l n) (hl : l.Perm l') : Shared P l' n := by
  induction hl generalizing n with
  | nil => trivial
  | cons a _ ih =>
    obtain ⟨k, r, hkr, ha, h⟩ := h
    exact ⟨k, r, hkr, ha, ih h⟩
  | swap a b l =>
    obtain ⟨k, r, hkr, hb, k', r', hkr', ha, h⟩ := h
    exact ⟨k', k + r', by omega, ha, k, r', Nat.le_refl _, hb, h⟩
  | trans _ _ ih ih' => exact ih' (ih h)

end Shared

/-- A step leaves the level, and what comes after it takes the others. -/
def Level.Within (l : Level) (n : Nat) : Prop := ∃ k, k < n ∧ ∀ w, l.GoesOn w → w.Within k

/-- Work and the levels below it. -/
def Pending (w : Work) (ls : List Level) (n : Nat) : Prop :=
  ∃ k r, k + r ≤ n ∧ w.Within k ∧ Shared Level.Within ls r

def Future.Within (f : Future) (n : Nat) : Prop := Pending f.work (f.calls.map (.running .async)) n

def Paused.Within (p : Paused) (n : Nat) : Prop := Pending p.work p.levels n

theorem Work.Within.pending {w : Work} {n : Nat} (h : w.Within n) : Pending w [] n :=
  ⟨n, 0, Nat.le_refl n, h, trivial⟩

section Levels
variable {w : Work} {l : Level} {ls r : List Level} {n k j : Nat}

/-- A level with what is above it comes onto a stack. -/
theorem Pending.push (h : Pending w ls n) (hl : ∀ w, l.GoesOn w → w.Within k)
    (hr : Shared Level.Within r j) : Pending w (ls ++ l :: r) (n + k + 1 + j) := by
  obtain ⟨a, b, hab, hw, hls⟩ := h
  have hl : Shared Level.Within (l :: r) (k + 1 + j) :=
    ⟨k + 1, j, Nat.le_refl _, ⟨k, Nat.lt_succ_self k, hl⟩, hr⟩
  exact ⟨a, b + (k + 1 + j), by omega, hw, Shared.append_iff.2 ⟨b, _, Nat.le_refl _, hls, hl⟩⟩

/-- A level with what is above it is taken off a stack, and the work goes on after it. -/
theorem Shared.pop (h : Shared Level.Within (ls ++ l :: r) n) (hw : l.GoesOn w) :
    ∃ a k, a + k < n ∧ Shared Level.Within ls a ∧ Pending w r k := by
  obtain ⟨a, b, hab, hls, c, d, hcd, ⟨k, hk, hl⟩, hr⟩ := Shared.append_iff.1 h
  exact ⟨a, k + d, by omega, hls, k, d, Nat.le_refl _, hl w hw, hr⟩

end Levels

namespace Machine
variable {x : Executor} {m : Machine} {name : String} {n s f p : Nat}

/-- The stack, the futures and the paused threads of a machine have such shares. -/
structure Shares (m : Machine) (s f p : Nat) : Prop where
  stack : Shared Level.Within m.stack s
  futures : Shared (fun e : String × Future => e.2.Within) m.futures f
  paused : Shared Paused.Within m.paused p

/-- A machine takes at most so many steps: its work and all that is in progress share them. -/
def Within (m : Machine) (n : Nat) : Prop :=
  ∃ k s f p, k + s + f + p ≤ n ∧ m.work.Within k ∧ m.Shares s f p

theorem Within.mono {n' : Nat} (h : m.Within n) (hn : n ≤ n') : m.Within n' := by
  obtain ⟨k, s, f, p, hk, hm⟩ := h
  exact ⟨k, s, f, p, Nat.le_trans hk hn, hm⟩

theorem within_start {w : Work} (h : w.Within n) (world : World) : (start w world).Within n :=
  ⟨n, 0, 0, 0, Nat.le_refl n, h, trivial, trivial, trivial⟩

/-- The shares of the parts of a machine, when they come to less than a bound. -/
theorem exists_within {k : Nat} (h : Pending m.work m.stack k)
    (hf : Shared (fun e : String × Future => e.2.Within) m.futures f)
    (hp : Shared Paused.Within m.paused p) (hn : k + f + p < n) : ∃ j, j < n ∧ m.Within j := by
  obtain ⟨a, b, hab, hw, hs⟩ := h
  exact ⟨k + f + p, hn, a, b, f, p, by omega, hw, hs, hf, hp⟩

theorem Shares.dropFuture (h : m.Shares s f p) (name : String) : (m.dropFuture name).Shares s f p := by
  refine ⟨stack_dropFuture m name ▸ h.stack, ?_, ?_⟩
  · rw [futures_dropFuture]
    exact h.futures.sublist List.filter_sublist
  · unfold Machine.dropFuture
    split <;> exact h.paused

/-! ### One lemma for each form of control -/

section Control
variable (h : m.Shares s f p)
include h

theorem finish_within (hm : m.stack ≠ []) (e : Ending) :
    ∃ j, j < s + f + p ∧ (m.finish e).Within j := by
  have hpop {l : Level} {r : List Level} {w : Work} (hs : m.stack = l :: r) (hw : l.GoesOn w) :
      ∃ k, k < s ∧ Pending w r k := by
    have hstack : Shared Level.Within ([] ++ l :: r) s := hs ▸ h.stack
    obtain ⟨a, k, hak, -, hpending⟩ := hstack.pop hw
    exact ⟨k, by omega, hpending⟩
  unfold finish
  split <;> rename_i hs
  · exact absurd hs hm
  · obtain ⟨k, hk, hpending⟩ := hpop hs ⟨e, rfl⟩
    exact exists_within hpending h.futures h.paused (by omega)
  · obtain ⟨k, hk, hpending⟩ := hpop hs ⟨.ready e, rfl⟩
    exact exists_within hpending h.futures h.paused (by omega)
  · obtain ⟨k, hk, hpending⟩ := hpop hs ⟨.ended e, rfl⟩
    exact exists_within hpending h.futures h.paused (by omega)

theorem call_within {mode : Mode} {c : Call} {body : Work} {next : Ending → Work}
    (hw : (Work.call mode c body next).Within n) :
    ∃ j, j < n + s + f + p ∧ (m.call x mode c body next).Within j := by
  obtain ⟨b, k, hn, hb, hk⟩ := hw
  unfold call
  split
  · rename_i hold span w _
    have hpush := hb.pending.push (l := .running mode ⟨hold, span, next⟩)
      (by rintro w ⟨e, rfl⟩; exact hk e) h.stack
    exact exists_within hpush h.futures h.paused (by omega)
  all_goals exact exists_within ⟨k, s, Nat.le_refl _, hk _, h.stack⟩ h.futures h.paused (by omega)

theorem future_within {body next : Work} (hw : (Work.future name body next).Within n) :
    ∃ j, j < n + s + f + p ∧ { m.dropFuture name with
      work := next, futures := (m.dropFuture name).futures.put name ⟨body, []⟩ }.Within j := by
  obtain ⟨b, k, hn, hb, hk⟩ := hw
  have hd := h.dropFuture name
  refine exists_within ⟨k, s, Nat.le_refl _, hk, hd.stack⟩ (f := b + f) ?_ hd.paused (by omega)
  exact ⟨b, f, Nat.le_refl _, hb.pending, hd.futures.sublist List.filter_sublist⟩

theorem poll_within (hkeys : (m.futures.map Prod.fst).Nodup) {next : Polled → Work}
    (hw : (Work.poll name next).Within n) : ∃ j, j < n + s + f + p ∧ (m.poll name next).Within j := by
  obtain ⟨k, hn, hk⟩ := hw
  unfold poll
  split
  · exact exists_within ⟨k, s, Nat.le_refl _, hk _, h.stack⟩ h.futures h.paused (by omega)
  · rename_i g hg
    obtain ⟨a, f', hf, hbody, hf'⟩ := h.futures.perm (Table.perm_cons_erase hkeys hg)
    have hpush := Pending.push (l := .polling name next) hbody (by rintro w ⟨p, rfl⟩; exact hk p) h.stack
    exact exists_within hpush hf' h.paused (by omega)

theorem yield_within {next : Work} (hw : (Work.yield next).Within n) :
    ∃ j, j < n + s + f + p ∧ (m.yield next).Within j := by
  obtain ⟨k, hn, hk⟩ := hw
  unfold yield
  split
  · exact exists_within ⟨k, s, Nat.le_refl _, hk, h.stack⟩ h.futures h.paused (by omega)
  · rename_i calls name polled rest hs
    have hd := Shares.dropFuture (m := { m with world := m.world.exitAll calls })
      ⟨h.stack, h.futures, h.paused⟩ name
    obtain ⟨a, b, hab, hcalls, hrest⟩ := Shared.pop (l := .polling name polled)
      (splitPoll_eq hs ▸ h.stack) ⟨.pending, rfl⟩
    refine exists_within hrest (f := k + a + f) ?_ hd.paused (by omega)
    exact ⟨k + a, f, Nat.le_refl _, ⟨k, a, Nat.le_refl _, hk, hcalls⟩,
      hd.futures.sublist List.filter_sublist⟩

theorem thread_within {inherits : Bool} {body : Work} {next : Waited → Work}
    (hw : (Work.thread name inherits body next).Within n) :
    ∃ j, j < n + s + f + p ∧ (m.thread name inherits body next).Within j := by
  obtain ⟨b, k, hn, hb, hk⟩ := hw
  have hpush := hb.pending.push (l := .waiting name m.world.running next)
    (by rintro w ⟨q, rfl⟩; exact hk q) h.stack
  unfold thread
  exact exists_within hpush h.futures h.paused (by omega)

theorem pause_within {next : Bool → Work} (hw : (Work.pause next).Within n) :
    ∃ j, j < n + s + f + p ∧ (m.pause next).Within j := by
  obtain ⟨k, hn, hk⟩ := hw
  unfold pause
  split
  · exact exists_within ⟨k, s, Nat.le_refl _, hk _, h.stack⟩ h.futures h.paused (by omega)
  · rename_i levels name waiter waited rest hs
    obtain ⟨a, b, hab, hlevels, hrest⟩ := Shared.pop (l := .waiting name waiter waited)
      (splitThread_eq hs ▸ h.stack) ⟨.paused, rfl⟩
    refine exists_within hrest h.futures (p := k + a + p) ?_ (by omega)
    refine ⟨k + a, p, Nat.le_refl _, ⟨k, a, Nat.le_refl _, hk _, hlevels⟩, ?_⟩
    exact h.paused.map fun hq => by unfold Paused.unnamed; split <;> exact hq

theorem resume_within {next : Waited → Work} (hw : (Work.resume name next).Within n) :
    ∃ j, j < n + s + f + p ∧ (m.resume name next).Within j := by
  obtain ⟨k, hn, hk⟩ := hw
  unfold resume
  split
  · exact exists_within ⟨k, s, Nat.le_refl _, hk _, h.stack⟩ h.futures h.paused (by omega)
  · rename_i q hq
    obtain ⟨a, p', hp, hbody, hp'⟩ := h.paused.perm (perm_cons_eraseP hq)
    have hpush := Pending.push (l := .waiting name m.world.running next) hbody
      (by rintro w ⟨q, rfl⟩; exact hk q) h.stack
    exact exists_within hpush h.futures hp' (by omega)

end Control

/-- A step uses up one of the steps. -/
theorem Within.step (h : m.Within n) (hkeys : (m.futures.map Prod.fst).Nodup)
    (hm : ¬ m.ending?.isSome) : ∃ j, j < n ∧ (m.step x).Within j := by
  obtain ⟨k, s, f, p, hk, hw, h⟩ := h
  suffices ∃ j, j < k + s + f + p ∧ (m.step x).Within j by
    obtain ⟨j, hj, hstep⟩ := this
    exact ⟨j, Nat.lt_of_lt_of_le hj hk, hstep⟩
  unfold Machine.step
  split <;> rename_i hwork <;> rw [hwork] at hw
  · rename_i e
    have hstack : m.stack ≠ [] := fun hs => hm (by simp [ending?, hwork, hs])
    obtain ⟨j, hj, hstep⟩ := finish_within h hstack e
    exact ⟨j, by omega, hstep⟩
  · obtain ⟨j, hj, hnext⟩ := hw
    exact exists_within ⟨j, s, Nat.le_refl _, hnext _, h.stack⟩ h.futures h.paused (by omega)
  · exact call_within h hw
  · exact future_within h hw
  · exact poll_within h hkeys hw
  · obtain ⟨j, hj, hnext⟩ := hw
    have hd := h.dropFuture
    exact exists_within ⟨j, s, Nat.le_refl _, hnext _, (hd _).stack⟩ (hd _).futures (hd _).paused (by omega)
  · exact yield_within h hw
  · exact thread_within h hw
  · exact pause_within h hw
  · exact resume_within h hw

/-- A machine ends within its bound. -/
theorem ended_of_within (h : m.Within n) (hkeys : (m.futures.map Prod.fst).Nodup) :
    (m.run x n).ending?.isSome := by
  induction n generalizing m with
  | zero =>
    refine Classical.byContradiction fun hm => ?_
    obtain ⟨j, hj, -⟩ := h.step (x := x) hkeys hm
    exact Nat.not_lt_zero j hj
  | succ n ih =>
    by_cases hm : m.ending?.isSome
    · rwa [run_of_ending hm]
    · obtain ⟨j, hj, hstep⟩ := h.step (x := x) hkeys hm
      rw [run, if_neg hm]
      exact ih (hstep.mono (Nat.le_of_lt_succ hj)) (step_futures_nodup x m hkeys)

end Machine

/-! ### The work of a session -/

namespace Work

theorem within_act {op : Op} {next : op.Answer → Work} {k : Nat} (h : ∀ a, (next a).Within k) :
    (act op next).Within (k + 1) :=
  ⟨k, Nat.lt_succ_self k, h⟩

theorem within_future {body next : Work} {b k : Nat} (name : String) (hb : body.Within b)
    (hn : next.Within k) : (future name body next).Within (b + k + 1) :=
  ⟨b, k, Nat.lt_succ_self _, hb, hn⟩

end Work

namespace Session
open Work (within_act within_future)
variable {place : Place} {next : Work} {stop : Ending → Work} {k : Nat}

theorem within_report (place : Place) (verb : String) (r : Report) (h : next.Within k) :
    (report place verb r next).Within (k + 1) :=
  within_act fun _ => h

theorem Where.within (c : Where) {next : Nat → Work} (hstop : ∀ e, (stop e).Within k)
    (hnext : ∀ i, (next i).Within k) : (c.work stop next).Within (k + 2) := by
  cases c with
  | number n =>
    refine within_act fun i => ?_
    cases i with
    | ok i => exact (hnext i).mono (Nat.le_succ k)
    | error text => exact (hstop _).mono (Nat.le_succ k)
  | bound => exact within_act fun i => within_act fun _ => hnext i

theorem Named.within_token (i : Named) {next : Token → Work} (hstop : ∀ e, (stop e).Within k)
    (hnext : ∀ t, (next t).Within k) : (i.token stop next).Within (k + 1) := by
  cases i with
  | value i => exact within_act hnext
  | met number =>
    refine within_act fun t => ?_
    cases t with
    | ok t => exact hnext t
    | error text => exact hstop _

theorem Named.within_identity (i : Named) {next : Identity → Work} (hstop : ∀ e, (stop e).Within k)
    (hnext : ∀ i, (next i).Within k) : (i.identity stop next).Within (k + 1) := by
  cases i with
  | value i => exact (hnext i).mono (Nat.le_succ k)
  | met number => exact (met number).within_token hstop fun t => hnext t.identity

theorem within_slot (i : Option Named) {next : Option Token → Work} (hstop : ∀ e, (stop e).Within k)
    (hnext : ∀ t, (next t).Within k) : (slot i stop next).Within (k + 1) := by
  cases i with
  | none => exact (hnext none).mono (Nat.le_succ k)
  | some i => exact i.within_token hstop fun t => hnext (some t)

theorem Whom.within (p : Whom) {next : Assumed → Work} (hstop : ∀ e, (stop e).Within k)
    (hnext : ∀ a, (next a).Within k) : (p.work stop next).Within (k + 1) := by
  cases p with
  | system | anonymous | user p => exact (hnext _).mono (Nat.le_succ k)
  | identity i => exact i.within_identity hstop fun i => hnext _

theorem within_pushes (c : Where) (t : Option Token) {next : Option Nat → Work} (last : Option Nat)
    (times : Nat) (hstop : ∀ e, (stop e).Within k) (hnext : ∀ n, (next n).Within k) :
    (pushes c t stop next last times).Within (k + 3 * times) := by
  induction times generalizing last with
  | zero => exact hnext last
  | succ times ih =>
    have hrest : k ≤ k + 3 * times + 1 := by omega
    exact c.within (fun e => (hstop e).mono hrest) fun i => within_act fun _ => ih _

theorem within_settled {α : Type} (o : Outcome ResolutionError α) {note : Report → Work}
    {next : α → Work} (hnote : ∀ r, (note r).Within k) (hstop : ∀ e, (stop e).Within k)
    (hnext : ∀ a, (next a).Within k) : (settled o note stop next).Within k := by
  cases o with
  | ok a => exact hnext a
  | error e => exact hnote _
  | panic text => exact hstop _

/-- With any part of the bound left the result of an action can be noted, or the work can stop. -/
theorem Action.within (x : Executor) (a : Action) {note : Report → Work}
    (hnote : ∀ r j, (note r).Within (k + (j + 1))) (hstop : ∀ e j, (stop e).Within (k + j)) :
    (a.work x note stop).Within (k + stepCost (.act a)) := by
  cases a with
  | newContext i =>
    rw [Action.work]
    exact within_slot i (hstop · _) fun t => within_act fun c => within_act fun n => hnote _ _
  | token i =>
    exact i.within_identity (hstop · _) fun i => within_act fun t => within_act fun n => hnote _ _
  | get c =>
    exact c.within (hstop · _) fun c => within_act fun t => within_act fun n => hnote _ _
  | set c i =>
    exact i.within_token (hstop · _) fun t => c.within (hstop · _) fun c => within_act fun _ => hnote _ _
  | clear c | depth c | isAuthenticated c | principal c | hasAuthority c | isAdministrator c
  | bindContext c => exact c.within (hstop · _) fun c => within_act fun _ => hnote _ _
  | replace c i =>
    rw [Action.work]
    exact within_slot i (hstop · _) fun t => c.within (hstop · _) fun c => within_act fun previous =>
      within_act fun n => hnote _ _
  | push c label i times =>
    rw [Action.work]
    refine (within_slot i (hstop · (15 + 3 * times)) fun t => ?_).mono (by rw [stepCost]; omega)
    refine (within_pushes c t none times (hstop · 15) fun last => ?_).mono (by omega)
    cases last with
    | some n => exact within_act fun _ => hnote _ _
    | none => exact hnote _ _
  | pop c label =>
    refine within_act fun n => ?_
    cases n with
    | some n => exact c.within (hstop · _) fun c => within_act fun b => hnote _ _
    | none => exact hnote _ _
  | sameFrame | boundContext | unregister => exact within_act fun _ => within_act fun _ => hnote _ _
  | unbindContext | isBound | setRoles | removeUser | register | fail | heal =>
    exact within_act fun _ => hnote _ _
  | create | resolve | systemIdentity | systemPrincipal =>
    exact within_act fun o => within_settled o (hnote · _) (hstop · _) fun _ => hnote _ _
  | anonymousIdentity | defaultTenant | config | debug => exact hnote _ _
  | identityIsAdministrator i => exact i.within_identity (hstop · _) fun i => hnote _ _
  | become c p =>
    exact c.within (hstop · _) fun c => within_act fun o => within_settled o (hnote · _) (hstop · _)
      fun previous => within_act fun n => hnote _ _

theorem within_handled (h : Handling) (e : Ending) {note : Work → Work}
    (hnote : ∀ w, w.Within k → (note w).Within (k + 1)) (hnext : next.Within k)
    (hstop : ∀ e, (stop e).Within k) : (handled h e note next stop).Within (k + 1) := by
  cases e with
  | ok v => exact hnote _ hnext
  | error cause =>
    refine hnote _ ?_
    split
    · exact hstop _
    · exact hnext
  | panic text =>
    unfold handled
    dsimp only
    split
    · exact hnote _ hnext
    · exact (hstop _).mono (Nat.le_succ k)

theorem Whom.within_call (p : Whom) (mode : Mode) (c : Nat) {body : Work} {after : Ending → Work} {b : Nat}
    (hbody : body.Within b) (hstop : ∀ e, (stop e).Within k) (hafter : ∀ e, (after e).Within k) :
    (p.work stop fun a => .call mode ⟨c, a⟩ body after).Within (b + k + 3) :=
  p.within (fun e => (hstop e).mono (by omega)) fun _ => ⟨b, k, Nat.lt_succ_self _, hbody, hafter⟩

/-- Each of the nested calls is begun, left and remembered. -/
theorem within_nested (place : Place) (c : Nat) (p : Whom) {body : (Ending → Work) → Work} {b : Nat}
    (hbody : ∀ {stop : Ending → Work} {k}, (∀ e, (stop e).Within k) → (body stop).Within (b + k))
    (times : Nat) (hstop : ∀ e, (stop e).Within k) :
    (nested place c p body times stop).Within (4 * times + b + k) := by
  induction times generalizing stop k with
  | zero => exact (hbody hstop).mono (by omega)
  | succ times ih =>
    have hinner : (nested place c p body times .done).Within (4 * times + b + 0) := ih fun _ => trivial
    refine (p.within_call .sync c hinner (fun e => (hstop e).mono (Nat.le_succ k)) fun e => ?_).mono
      (by omega)
    cases e with
    | panic text => exact (hstop _).mono (Nat.le_succ k)
    | ok | error => exact within_act fun _ => hstop _

mutual

/-- A step takes at most its cost until the work goes on or stops. Beside what is inside it, these are few
steps: the context and the token that it names, its call, and its reports. -/
theorem Step.within (x : Executor) (place : Place) : ∀ (s : Step) {next : Work} {stop : Ending → Work}
    {k : Nat}, next.Within k → (∀ e, (stop e).Within k) →
      (s.work x place next stop).Within (k + stepCost s)
  | .act a, next, stop, k, hnext, hstop => by
    have hnote : ∀ r j, (report place a.verb r next).Within (k + (j + 1)) := fun r j =>
      (within_report place a.verb r hnext).mono (by omega)
    exact a.within x hnote fun e j => (hstop e).mono (Nat.le_add_right ..)
  | .run c p steps last h, next, stop, k, hnext, hstop => by
    have hbody := within_body x place steps last
    have hafter := fun e => within_handled h e (fun _ => within_report place "run" (.ending e)) hnext hstop
    have hwork := c.within (fun e => (hafter e).mono (by omega)) fun c =>
      p.within_call .sync c hbody hafter hafter
    rw [Step.work]
    exact hwork.mono (by rw [stepCost]; omega)
  | .nest c p times steps last h, next, stop, k, hnext, hstop => by
    have hbody {stop : Ending → Work} {k : Nat} (hstop : ∀ e, (stop e).Within k) :
        (report place "work" .nothing (stepsWork x place 0 steps last stop)).Within
          (stepsCost steps + 1 + k) :=
      (within_report place _ _ (stepsWork_within x place steps 0 last hstop)).mono (by omega)
    have hafter (e : Ending) : (Work.act (.marks (Place.text place)) fun unwound =>
        handled h e (report place "nest" (nestedReport e unwound)) next stop).Within (k + 1 + 1) :=
      within_act fun unwound => within_handled h e
        (fun _ => within_report place "nest" (nestedReport e unwound)) hnext hstop
    have hwork := c.within (fun e => (hstop e).mono (by omega)) fun c =>
      within_nested place c p hbody times hafter
    rw [Step.work]
    exact hwork.mono (by rw [stepCost]; omega)
  | .future name c p steps last, next, stop, k, hnext, hstop => by
    have hbody := within_body x place steps last
    have hdone : ∀ e, (Work.done e).Within 0 := fun _ => trivial
    have hfuture := fun c => p.within_call .async c hbody hdone hdone
    have hwork := c.within (fun e => (hstop e).mono (by omega)) fun c =>
      within_future name (hfuture c) (within_report place "future" .nothing hnext)
    rw [Step.work]
    exact hwork.mono (by rw [stepCost]; omega)
  | .yield, next, stop, k, hnext, hstop =>
    ⟨k + 1, by show k + 1 < k + 16; omega, within_report place "yield" .nothing hnext⟩
  | .await c p steps last propagates, next, stop, k, hnext, hstop => by
    have hbody := within_body x place steps last
    have hafter := fun e => within_handled ⟨propagates, false⟩ e
      (fun _ => within_report place "await" (.ending e)) hnext hstop
    have hwork := c.within (fun e => (hstop e).mono (by omega)) fun c =>
      p.within_call .async c hbody (fun e => (hstop e).mono (Nat.le_succ k)) hafter
    rw [Step.work]
    exact hwork.mono (by rw [stepCost]; omega)
  | .poll name, next, stop, k, hnext, hstop =>
    ⟨k + 1, by show k + 1 + 1 < k + 16; omega, fun p => within_report place "poll" _ hnext⟩
  | .drop name, next, stop, k, hnext, hstop =>
    ⟨k + 1, by show k + 1 < k + 16; omega, fun b => within_report place "drop" _ hnext⟩
  | .thread name inherits steps last, next, stop, k, hnext, hstop => by
    have hsteps : (stepsWork x place 0 steps last .done).Within (0 + stepsCost steps) :=
      stepsWork_within x place steps 0 last fun _ => trivial
    exact ⟨_, k + 1, by rw [stepCost]; omega, hsteps, fun w => within_report place "thread" _ hnext⟩
  | .pause, next, stop, k, hnext, hstop =>
    ⟨k + 1, by show k + 1 < k + 16; omega, fun b => within_report place "pause" _ hnext⟩
  | .resume name, next, stop, k, hnext, hstop =>
    ⟨k + 1, by show k + 1 + 1 < k + 16; omega, fun w => within_report place "resume" _ hnext⟩

/-- What runs inside a call. -/
theorem within_body (x : Executor) (place : Place) (steps : List Step) (last : Ending) :
    (report place "work" .nothing (stepsWork x place 0 steps last .done)).Within (stepsCost steps + 1) := by
  have hsteps : (stepsWork x place 0 steps last .done).Within (0 + stepsCost steps) :=
    stepsWork_within x place steps 0 last fun _ => trivial
  exact within_report place "work" .nothing (hsteps.mono (Nat.le_of_eq (Nat.zero_add _)))

theorem stepsWork_within (x : Executor) (place : Place) : ∀ (steps : List Step) (index : Nat)
    (last : Ending) {stop : Ending → Work} {k : Nat}, (∀ e, (stop e).Within k) →
      (stepsWork x place index steps last stop).Within (k + stepsCost steps)
  | [], index, last, stop, k, hstop => (hstop last).mono (Nat.le_succ k)
  | s :: r, index, last, stop, k, hstop => by
    have hrest := stepsWork_within x place r (index + 1) last hstop
    have hs := s.within x (index :: place) hrest fun e => (hstop e).mono (Nat.le_add_right ..)
    exact hs.mono (by rw [stepsCost]; omega)

end

/-- The steps of a session bring it to an ending. -/
theorem outcome_ended (s : Session) (x : Executor) (spansOn : Bool) :
    (s.outcome x spansOn).ending?.isSome := by
  have hwork : (stepsWork x [] 0 s.steps (.ok .null) .done).Within (0 + stepsCost s.steps) :=
    stepsWork_within x [] s.steps 0 _ fun _ => trivial
  have hbound : (s.machine x (s.world spansOn)).Within (stepsCost s.steps + 16) :=
    Machine.within_start (hwork.mono (by omega)) _
  exact Machine.ended_of_within hbound List.nodup_nil

/-- However many steps more the machine of a session is given, its outcome stays. -/
theorem run_eq_outcome (s : Session) (x : Executor) (spansOn : Bool) {n : Nat}
    (hn : stepsCost s.steps + 16 ≤ n) :
    (s.machine x (s.world spansOn)).run x n = s.outcome x spansOn := by
  obtain ⟨k, rfl⟩ := Nat.exists_eq_add_of_le hn
  rw [Machine.run_add]
  exact Machine.run_of_ending (s.outcome_ended x spansOn) k

end Session
end Guise

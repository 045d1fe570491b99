import Guise.Proofs.Turns
import Mathlib.Data.List.Nodup

/-!
# Frames and calls in progress

`Layered`: above the frames that a context had at first it has exactly one for each call in progress
in it, whatever order the calls end in. `Recorded` and `Credited` say the same against the history of
a run: frames are numbered in the order of installation, and what a task holds it installed itself,
the innermost last. Together, what stands above the first frames are the frames of the live
installations, the latest on top (`numbers_eq_live`), and the frame of an installation that is not
live is gone (`gone_of_ended`).
-/

namespace Guise

/-- If work goes on with an operation or a call, it is of a certain sort. -/
def Work.Next (P : Op → Prop) (Q : Call → Prop) : Work → Prop
  | .act op _ => P op
  | .call _ c _ _ => Q c
  | _ => True

instance (P : Op → Prop) (Q : Call → Prop) [DecidablePred P] [DecidablePred Q] :
    (work : Work) → Decidable (work.Next P Q)
  | .act op _ => inferInstanceAs (Decidable (P op))
  | .call _ c _ _ => inferInstanceAs (Decidable (Q c))
  | .done _ | .future .. | .poll .. | .drop .. | .yield _ | .thread .. | .pause _ | .resume .. =>
    .isTrue trivial

theorem Work.Next.mono {P P' : Op → Prop} {Q Q' : Call → Prop} {work : Work} (h : work.Next P Q)
    (hP : ∀ op, P op → P' op) (hQ : ∀ c, Q c → Q' c) : work.Next P' Q' := by
  cases work with
  | act op next => exact hP op h
  | call mode c body next => exact hQ c h
  | _ => trivial

namespace Machine
variable {x : Executor} {m m' : Machine} {d : Nat} {l : List Nat} {hs : List Installation}

/-- The frames that calls in progress hold. -/
def holds (m : Machine) : List Hold := m.owned.map (·.2)

/-- The next step pushes and pops nothing by hand in a context, and begins no call in it before the
context is made. -/
def Careful (d : Nat) (m : Machine) : Prop :=
  m.work.Next (·.stacked? ≠ some d) fun c => c.context = d → d < m.world.contextCount

theorem Careful.of_installed (h : m.Careful d) {i : Installation} (hi : Installed x m m' i)
    (hd : i.hold.context = d) : d < m.world.contextCount := by
  obtain ⟨mode, c, body, next, hm, hc⟩ := hi.call
  rw [Careful, hm] at h
  exact h (hc.trans hd)

theorem Begun.owned {t : Nat} (h : Begun m m' t) : m'.owned = m.owned := by
  simp [Machine.owned, h.tasks, Task.owned]

theorem Installed.owned {i : Installation} (h : Installed x m m' i) :
    m'.owned = i.owner :: m.owned := by
  simp [Machine.owned, tasks, h.current, h.others, Task.owned, Task.enter, Installation.owner, h.party]

/-- The frames of a context that are held are those that go and those that stay. -/
theorem Released.framesOn {gone : List (Party × Hold)} (h : Released m m' gone) (d : Nat) :
    (framesOn d m.holds).Perm (framesOn d (gone.map (·.2)) ++ framesOn d m'.holds) := by
  have ho : m.holds.Perm (gone.map (·.2) ++ m'.holds) := by
    simpa [Machine.holds] using h.owned.map (·.2)
  rw [← framesOn_append]
  exact (ho.filter _).map _

/-- What a careful step does to one context: it keeps it, or writes to the slot that shows, or makes
it, or a call installs a frame, or frames are released. -/
inductive Effect (x : Executor) (d : Nat) (m m' : Machine) : Prop
  | kept : m'.owned = m.owned → m.installs x = none →
      m'.world.context d = m.world.context d → Effect x d m m'
  | written (op : Op) (next : op.Answer → Work) (t : Option Token) : m'.owned = m.owned →
      m.installs x = none → m.work = .act op next → op.written? = some d →
      m'.world = (op.perform x m.world).2 →
      m'.world.context d = (m.world.context d).put t → Effect x d m m'
  | made (t : Option Token) : m'.owned = m.owned → m.installs x = none →
      m.world.contextCount = d → m'.world.context d = .ofToken t → Effect x d m m'
  | installed (i : Installation) : Installed x m m' i → Effect x d m m'
  | released (gone : List (Party × Hold)) : m.installs x = none → Released m m' gone →
      Effect x d m m'

theorem Turn.effect (h : Turn x m m') (hc : m.Careful d) : Effect x d m m' := by
  cases h with
  | operated op next hm htasks hw =>
    have ho : m'.owned = m.owned := congrArg (List.flatMap Task.owned) htasks
    have hnone : m.installs x = none := by simp [installs, hm]
    have hch := Op.perform_change x m.world op d
    rw [← hw] at hch
    rw [Careful, hm] at hc
    cases hch with
    | stays hy => exact .kept ho hnone hy
    | written t hwr hy => exact .written op next t ho hnone hm hwr hw hy
    | pushed t hst => exact absurd hst hc
    | popped n hst => exact absurd hst hc
    | made t hd hy => exact .made t ho hnone hd hy
  | installed i hi => exact .installed i hi
  | begun t hnone hb =>
    rcases hb.context d with hy | ⟨hd, t, hy⟩
    · exact .kept hb.owned hnone hy
    · exact .made t hb.owned hnone hd hy
  | released gone hnone hr => exact .released gone hnone hr

/-! ### Frames -/

/-- Above the frames numbered `l`, a context has one frame for each call in progress in it; and a
context that is not made yet has none. -/
structure Layered (d : Nat) (l : List Nat) (m : Machine) : Prop where
  wellNumbered : (m.world.context d).WellNumbered
  numbers : ∃ ns, (m.world.context d).numbers = ns ++ l ∧ ns.Perm (framesOn d m.holds)
  absent : m.world.contextCount ≤ d → (m.world.context d).numbers = []

namespace Layered

theorem start {w : World} (work : Work) (hw : (w.context d).WellNumbered)
    (ha : w.contextCount ≤ d → (w.context d).numbers = []) :
    Layered d (w.context d).numbers (start work w) :=
  ⟨hw, ⟨[], rfl, .nil⟩, ha⟩

theorem of_numbers (h : Layered d l m) (ho : m'.owned = m.owned)
    (hw : (m'.world.context d).WellNumbered)
    (hn : (m'.world.context d).numbers = (m.world.context d).numbers)
    (hc : m.world.contextCount ≤ m'.world.contextCount) : Layered d l m' :=
  ⟨hw, by simpa only [hn, Machine.holds, ho] using h.numbers,
    fun hd => hn.trans (h.absent (Nat.le_trans hc hd))⟩

theorem installed (h : Layered d l m) {i : Installation} (hi : Installed x m m' i)
    (hc : m.Careful d) : Layered d l m' := by
  obtain ⟨ns, hns, hp⟩ := h.numbers
  have hholds : m'.holds = i.hold :: m.holds := by simp [Machine.holds, hi.owned, Installation.owner]
  by_cases hd : i.hold.context = d
  · have hctx := hi.context d
    rw [if_pos hd] at hctx
    refine ⟨hctx ▸ h.wellNumbered.push _, ⟨i.hold.frame :: ns, ?_, ?_⟩, fun hle => ?_⟩
    · rw [hctx, Context.numbers_push, hns, hi.frame, hd]; rfl
    · rw [hholds, framesOn_cons, if_pos hd]; exact hp.cons _
    · exact absurd (hc.of_installed hi hd) (Nat.not_lt.2 (hi.contextCount ▸ hle))
  · have hctx := hi.context d
    rw [if_neg hd] at hctx
    refine ⟨hctx ▸ h.wellNumbered, ⟨ns, hctx ▸ hns, ?_⟩, fun hle => ?_⟩
    · rw [hholds, framesOn_cons, if_neg hd]; exact hp
    · rw [hctx]; exact h.absent (hi.contextCount ▸ hle)

theorem not_under (h : Layered d l m) {n : Nat} (hn : n ∈ framesOn d m.holds) : n ∉ l := by
  obtain ⟨ns, hns, hp⟩ := h.numbers
  have hnodup := List.nodup_append.1 (hns ▸ h.wellNumbered.nodup)
  exact fun hl => hnodup.2.2 n (hp.mem_iff.2 hn) n hl rfl

/-- The frames that go are among those of the calls, so those under them stay. -/
theorem released (h : Layered d l m) {gone : List (Party × Hold)} (hr : Released m m' gone) :
    Layered d l m' := by
  obtain ⟨ns, hns, hp⟩ := h.numbers
  let out := framesOn d (gone.map (·.2))
  let left := framesOn d m'.holds
  have hctx : m'.world.context d = (m.world.context d).popAll out := hr.world.context d
  have hnum : (m'.world.context d).numbers = ns.filter (· ∉ out) ++ l.filter (· ∉ out) := by
    rw [hctx, h.wellNumbered.numbers_popAll, hns, List.filter_append]
  have hsplit : ns.Perm (out ++ left) := hp.trans (hr.framesOn d)
  have hunder : l.filter (· ∉ out) = l := List.filter_eq_self.2 fun n hn => decide_eq_true fun hout =>
    h.not_under ((hr.framesOn d).mem_iff.2 (List.mem_append_left _ hout)) hn
  have hleft : (ns.filter (· ∉ out)).Perm left := by
    have hnodup := (List.nodup_append.1 (hns ▸ h.wellNumbered.nodup)).1
    have hdis := (List.nodup_append.1 (hsplit.nodup_iff.1 hnodup)).2.2
    have hnone : out.filter (· ∉ out) = [] := List.filter_eq_nil_iff.2 fun n hn => by simpa using hn
    have hall : left.filter (· ∉ out) = left :=
      List.filter_eq_self.2 fun n hn => decide_eq_true fun hout => hdis n hout n hn rfl
    have := hsplit.filter (· ∉ out)
    rwa [List.filter_append, hnone, hall, List.nil_append] at this
  refine ⟨hctx ▸ h.wellNumbered.popAll out, ⟨ns.filter (· ∉ out), ?_, hleft⟩, fun hle => ?_⟩
  · rw [hnum, hunder]
  · rw [hctx, h.wellNumbered.numbers_popAll, h.absent (hr.world.contextCount ▸ hle)]; rfl

theorem step (h : Layered d l m) (ht : Turn x m m') (hc : m.Careful d) : Layered d l m' := by
  have hg := ht.grows.1
  cases ht.effect hc with
  | kept ho _ hy => exact h.of_numbers ho (hy ▸ h.wellNumbered) (by rw [hy]) hg
  | written op next t ho _ _ _ _ hy =>
    exact h.of_numbers ho (hy ▸ h.wellNumbered.put t) (by rw [hy, Context.put_numbers]) hg
  | made t ho _ hd hy =>
    have hnone := h.absent (Nat.le_of_eq hd)
    exact h.of_numbers ho (hy ▸ .ofToken t) (by rw [hy, hnone, Context.numbers_ofToken]) hg
  | installed i hi => exact h.installed hi hc
  | released gone _ hr => exact h.released hr

end Layered

/-! ### History -/

/-- The installations of so many steps, in order. -/
def history (x : Executor) : Nat → Machine → List Installation
  | 0, _ => []
  | n + 1, m => (m.installs x).toList ++ history x n (m.step x)

theorem history_succ' (x : Executor) (n : Nat) (m : Machine) :
    m.history x (n + 1) = m.history x n ++ ((m.run x n).installs x).toList := by
  induction n generalizing m with
  | zero => simp [history, run]
  | succ n ih => rw [history, ih, history, run_succ, List.append_assoc]

theorem append_installs (h : m.installs x = none) : hs ++ (m.installs x).toList = hs := by
  rw [h, Option.toList_none, List.append_nil]

/-- Frames installed in a context are numbered in the order of installation, above the frames
numbered `l`; and nothing is installed in a context that is not made yet. -/
structure Recorded (d : Nat) (l : List Nat) (hs : List Installation) (m : Machine) : Prop where
  ascending : (framesOn d (hs.map (·.hold))).Pairwise (· < ·)
  below : ∀ n ∈ framesOn d (hs.map (·.hold)), n < (m.world.context d).next
  above : ∀ n ∈ framesOn d (hs.map (·.hold)), ∀ k ∈ l, k < n
  absent : m.world.contextCount ≤ d → framesOn d (hs.map (·.hold)) = []

namespace Recorded

theorem of_next (h : Recorded d l hs m) (hn : framesOn d (hs.map (·.hold)) = [] ∨
      (m.world.context d).next ≤ (m'.world.context d).next)
    (hc : m.world.contextCount ≤ m'.world.contextCount) : Recorded d l hs m' := by
  refine ⟨h.ascending, fun n hm => ?_, h.above, fun hd => h.absent (Nat.le_trans hc hd)⟩
  rcases hn with hn | hn
  · rw [hn] at hm; cases hm
  · exact Nat.lt_of_lt_of_le (h.below n hm) hn

theorem installed (h : Recorded d l hs m) (hl : Layered d l m) {i : Installation}
    (hi : Installed x m m' i) (hc : m.Careful d) : Recorded d l (hs ++ [i]) m' := by
  have hctx := hi.context d
  by_cases hd : i.hold.context = d
  · have hframes : framesOn d ((hs ++ [i]).map (·.hold)) =
        framesOn d (hs.map (·.hold)) ++ [(m.world.context d).next] := by
      rw [List.map_append, framesOn_append, List.map_singleton, framesOn_cons, if_pos hd, hi.frame, hd]
      rfl
    rw [if_pos hd] at hctx
    have hnext : (m'.world.context d).next = (m.world.context d).next + 1 := by rw [hctx]; rfl
    have hfresh : ∀ k ∈ l, k < (m.world.context d).next := fun k hk => by
      obtain ⟨ns, hns, -⟩ := hl.numbers
      exact hl.wellNumbered.below k (hns ▸ List.mem_append_right _ hk)
    constructor <;> rw [hframes]
    · exact List.pairwise_append.2 ⟨h.ascending, List.pairwise_singleton .., fun a ha b hb =>
        List.mem_singleton.1 hb ▸ h.below a ha⟩
    · intro n hn
      rw [hnext]
      rcases List.mem_append.1 hn with hn | hn
      · exact Nat.lt_succ_of_lt (h.below n hn)
      · exact List.mem_singleton.1 hn ▸ Nat.lt_succ_self _
    · intro n hn
      rcases List.mem_append.1 hn with hn | hn
      · exact h.above n hn
      · exact List.mem_singleton.1 hn ▸ hfresh
    · exact fun hle => absurd (hc.of_installed hi hd) (Nat.not_lt.2 (hi.contextCount ▸ hle))
  · have hframes : framesOn d ((hs ++ [i]).map (·.hold)) = framesOn d (hs.map (·.hold)) := by
      rw [List.map_append, framesOn_append, List.map_singleton, framesOn_cons, if_neg hd]
      exact List.append_nil _
    rw [if_neg hd] at hctx
    have h' : Recorded d l hs m' :=
      h.of_next (.inr (Nat.le_of_eq (by rw [hctx]))) (Nat.le_of_eq hi.contextCount.symm)
    constructor <;> rw [hframes]
    · exact h'.ascending
    · exact h'.below
    · exact h'.above
    · exact h'.absent

theorem step (h : Recorded d l hs m) (hl : Layered d l m) (ht : Turn x m m') (hc : m.Careful d) :
    Recorded d l (hs ++ (m.installs x).toList) m' := by
  have hg := ht.grows.1
  cases ht.effect hc with
  | kept _ hnone hy =>
    rw [append_installs hnone]
    exact h.of_next (.inr (Nat.le_of_eq (by rw [hy]))) hg
  | written op next t _ hnone _ _ _ hy =>
    rw [append_installs hnone]
    exact h.of_next (.inr (Nat.le_of_eq (by rw [hy, Context.put_next]))) hg
  | made t _ hnone hd =>
    rw [append_installs hnone]
    exact h.of_next (.inl (h.absent (Nat.le_of_eq hd))) hg
  | installed i hi =>
    rw [hi.observed]
    exact h.installed hl hi hc
  | released gone hnone hr =>
    rw [append_installs hnone]
    refine h.of_next (.inr (Nat.le_of_eq ?_)) hg
    rw [hr.world.context, hl.wellNumbered.popAll_eq]

end Recorded

/-- Every task holds frames of its own installations, the latest first. -/
def Credited (hs : List Installation) (m : Machine) : Prop :=
  ∀ k ∈ m.tasks, k.owned.Sublist (hs.map Installation.owner).reverse

theorem Credited.step (h : Credited hs m) (ht : Turn x m m') :
    Credited (hs ++ (m.installs x).toList) m' := by
  cases ht with
  | operated op next hm htasks =>
    have hnone : m.installs x = none := by simp [installs, hm]
    rw [append_installs hnone]
    exact fun k hk => h k (htasks ▸ hk)
  | installed i hi =>
    rw [hi.observed]
    intro k hk
    have hrev : ((hs ++ [i]).map Installation.owner).reverse =
        i.owner :: (hs.map Installation.owner).reverse := by simp
    show k.owned.Sublist ((hs ++ [i]).map Installation.owner).reverse
    rw [hrev]
    rcases List.mem_cons.1 hk with rfl | hk
    · rw [hi.current]
      have hown : (m.current.enter i.hold).owned = i.owner :: m.current.owned := by
        simp [Task.owned, Task.enter, Installation.owner, hi.party]
      exact hown ▸ (h m.current (List.mem_cons_self ..)).cons_cons _
    · exact (h k (List.mem_cons_of_mem _ (hi.others ▸ hk))).cons _
  | begun t hnone hb =>
    rw [append_installs hnone]
    intro k hk
    rcases List.mem_cons.1 (hb.tasks ▸ hk) with rfl | hk
    · exact List.nil_sublist _
    · exact h k hk
  | released gone hnone hr =>
    rw [append_installs hnone]
    intro k hk
    rcases hr.suffix k hk with hk | ⟨j, hj, hp, hsuf⟩
    · simp [Task.owned, hk]
    · have hk : k.owned = k.holds.map (j.party, ·) := by rw [Task.owned, hp]
      exact hk ▸ (hsuf.sublist.map _).trans (h j hj)

/-! ### Runs -/

theorem run_turn (x : Executor) (work : Work) (w : World) (n : Nat) :
    Turn x ((start work w).run x n) ((start work w).run x (n + 1)) := by
  rw [run_succ']
  exact step_turn x _ (run_futures_nodup x n (start work w) .nil)

theorem run_contextCount_le (x : Executor) (work : Work) (w : World) (n : Nat) :
    w.contextCount ≤ ((start work w).run x n).world.contextCount := by
  induction n with
  | zero => exact Nat.le_refl _
  | succ n ih => exact Nat.le_trans ih (run_turn x work w n).grows.1

theorem credited_run (x : Executor) (work : Work) (w : World) (n : Nat) :
    Credited ((start work w).history x n) ((start work w).run x n) := by
  induction n with
  | zero =>
    intro k hk
    obtain rfl := List.mem_singleton.1 hk
    exact List.nil_sublist _
  | succ n ih =>
    rw [history_succ']
    exact ih.step (run_turn x work w n)

/-- In a careful run, a context has what it had at first, and above it a frame for each call in
progress. -/
theorem layered_run (x : Executor) (work : Work) {w : World} (n : Nat)
    (hw : (w.context d).WellNumbered) (ha : w.contextCount ≤ d → (w.context d).numbers = [])
    (hc : ∀ k < n, ((start work w).run x k).Careful d) :
    Layered d (w.context d).numbers ((start work w).run x n) ∧
      Recorded d (w.context d).numbers ((start work w).history x n) ((start work w).run x n) := by
  induction n with
  | zero => exact ⟨.start work hw ha, .nil, nofun, nofun, fun _ => rfl⟩
  | succ n ih =>
    obtain ⟨hl, hr⟩ := ih fun k hk => hc k (Nat.lt_succ_of_lt hk)
    have ht := run_turn x work w n
    have hn := hc n (Nat.lt_succ_self n)
    rw [history_succ']
    exact ⟨hl.step ht hn, hr.step hl ht hn⟩

/-- The installations in a context whose calls are in progress, in order. -/
def live (d : Nat) (hs : List Installation) (m : Machine) : List Installation :=
  (hs.filter (·.hold.context = d)).filter (·.owner ∈ m.owned)

theorem framesOn_history (d : Nat) (hs : List Installation) :
    framesOn d (hs.map (·.hold)) = (hs.filter (·.hold.context = d)).map (·.hold.frame) := by
  simp [framesOn, List.filter_map, Function.comp_def]

theorem framesOn_holds (d : Nat) (m : Machine) :
    framesOn d m.holds = (m.owned.filter (·.2.context = d)).map (·.2.frame) := by
  simp [framesOn, holds, List.filter_map, Function.comp_def]

section Live
variable (hl : Layered d l m) (hr : Recorded d l hs m)
include hr

theorem live_ascending : ((live d hs m).map (·.hold.frame)).Pairwise (· < ·) :=
  (framesOn_history d hs ▸ hr.ascending).sublist (List.filter_sublist.map _)

/-- A frame of a context tells its installation. -/
theorem eq_of_frame {i j : Installation} (hi : i ∈ hs) (hj : j ∈ hs) (hid : i.hold.context = d)
    (hjd : j.hold.context = d) (hf : i.hold.frame = j.hold.frame) : i = j := by
  have hnodup : ((hs.filter (·.hold.context = d)).map (·.hold.frame)).Nodup :=
    framesOn_history d hs ▸ hr.ascending.imp Nat.ne_of_lt
  exact List.inj_on_of_nodup_map hnodup (List.mem_filter.2 ⟨hi, by simpa using hid⟩)
    (List.mem_filter.2 ⟨hj, by simpa using hjd⟩) hf

include hl

/-- The live installations are the calls in progress. -/
theorem owners_live (hcr : Credited hs m) :
    ((live d hs m).map Installation.owner).Perm (m.owned.filter (·.2.context = d)) := by
  obtain ⟨ns, hns, hp⟩ := hl.numbers
  have hleft : ((live d hs m).map Installation.owner).Nodup := by
    refine .of_map (·.2.frame) ?_
    rw [List.map_map]
    exact (live_ascending hr).imp Nat.ne_of_lt
  have hright : (m.owned.filter (·.2.context = d)).Nodup := by
    refine .of_map (·.2.frame) ?_
    rw [← framesOn_holds]
    exact hp.nodup_iff.1 (List.nodup_append.1 (hns ▸ hl.wellNumbered.nodup)).1
  refine (List.perm_ext_iff_of_nodup hleft hright).2 fun o => ?_
  simp only [live, List.mem_map, List.mem_filter, decide_eq_true_eq]
  constructor
  · rintro ⟨i, ⟨⟨-, hd⟩, ho⟩, rfl⟩
    exact ⟨ho, hd⟩
  · rintro ⟨ho, hd⟩
    obtain ⟨k, hk, hok⟩ := List.mem_flatMap.1 ho
    obtain ⟨i, hi, rfl⟩ := List.mem_map.1 (List.mem_reverse.1 ((hcr k hk).subset hok))
    exact ⟨i, ⟨⟨hi, hd⟩, ho⟩, rfl⟩

/-- Above the first frames stand those of the live installations, the latest on top. -/
theorem numbers_eq_live (hcr : Credited hs m) : (m.world.context d).numbers =
    ((live d hs m).map (·.hold.frame)).reverse ++ l := by
  obtain ⟨ns, hns, hp⟩ := hl.numbers
  have hperm : ns.Perm ((live d hs m).map (·.hold.frame)).reverse := by
    have h := (owners_live hl hr hcr).map (·.2.frame)
    rw [← framesOn_holds, List.map_map] at h
    exact hp.trans (h.symm.trans (List.reverse_perm _).symm)
  have hdesc : ns.Pairwise (· > ·) :=
    (List.pairwise_append.1 (hns ▸ hl.wellNumbered.descending)).1
  rw [hns, hperm.eq_of_pairwise (fun a b _ _ hab hba => absurd hab (Nat.lt_asymm hba)) hdesc
    (List.pairwise_reverse.2 (live_ascending hr))]

/-- The frame of an installation whose call has ended is gone. -/
theorem gone_of_ended (hcr : Credited hs m) {i : Installation} (hi : i ∈ hs)
    (hd : i.hold.context = d) (hend : i.owner ∉ m.owned) :
    i.hold.frame ∉ (m.world.context d).numbers := by
  rw [numbers_eq_live hl hr hcr, List.mem_append, List.mem_reverse]
  rintro (hmem | hmem)
  · obtain ⟨j, hj, hf⟩ := List.mem_map.1 hmem
    simp only [live, List.mem_filter, decide_eq_true_eq] at hj
    exact hend (eq_of_frame hr hj.1.1 hi hj.1.2 hd hf ▸ hj.2)
  · have hmine : i.hold.frame ∈ framesOn d (hs.map (·.hold)) :=
      mem_framesOn.2 (hd ▸ List.mem_map.2 ⟨i, hi, rfl⟩)
    exact Nat.lt_irrefl _ (hr.above _ hmine _ hmem)

end Live

end Machine
end Guise

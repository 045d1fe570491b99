import Guise.Proofs.Layers

/-!
# A context that parties share

Threads and futures make calls in one context, and the calls end in any order, so a frame may go from
between others and a write may land in a frame of another party. What a party writes from inside a
call of its own can never land lower than the frames of calls, because its own frame is one of them
and lies above all that was there at first: `Sheltered` is kept. Without writes every frame shows
what its call installed (`Faithful`), and tokens of installations are all different (`Dated`).
-/

namespace Guise

namespace Machine
variable {x : Executor} {m m' : Machine} {c : Nat} {y : Context} {hs : List Installation}

/-- The next step writes into a context only inside a call of the running task in that context, and
pushes and pops nothing in it by hand. -/
def Disciplined (c : Nat) (m : Machine) : Prop :=
  m.work.Next (fun op => op.stacked? ≠ some c ∧
    (op.written? = some c → ∃ h ∈ m.current.holds, h.context = c)) fun _ => True

instance (c : Nat) (m : Machine) : Decidable (m.Disciplined c) :=
  inferInstanceAs (Decidable (m.work.Next _ _))

theorem Disciplined.careful (h : m.Disciplined c) (hc : c < m.world.contextCount) :
    m.Careful c :=
  h.mono (fun _ => And.left) fun _ _ _ => hc

/-- The next step, if it writes into a context, writes what shows there anyway. -/
def Idle (x : Executor) (c : Nat) (m : Machine) : Prop :=
  m.work.Next (fun op => op.written? = some c →
    ((op.perform x m.world).2.context c).visible = (m.world.context c).visible) fun _ => True

theorem mem_holds_of_current {h : Hold} (hh : h ∈ m.current.holds) : h ∈ m.holds :=
  List.mem_map.2 ⟨(m.current.party, h),
    List.mem_flatMap.2 ⟨m.current, List.mem_cons_self .., List.mem_map.2 ⟨h, hh, rfl⟩⟩, rfl⟩

/-! ### What lies under the frames of calls -/

/-- Base and frames that a context had are still there, under whatever else is. -/
structure Sheltered (c : Nat) (y : Context) (m : Machine) : Prop where
  base : (m.world.context c).base = y.base
  frames : y.frames <:+ (m.world.context c).frames

namespace Sheltered

/-- Frames above the sheltered ones are numbered as the invariant of the frames says. -/
theorem above (h : Sheltered c y m) {ns : List Nat}
    (hn : (m.world.context c).numbers = ns ++ y.numbers) :
    ∃ above, (m.world.context c).frames = above ++ y.frames ∧ above.map (·.number) = ns := by
  obtain ⟨above, ha⟩ := h.frames
  rw [Context.numbers, ← ha, List.map_append] at hn
  exact ⟨above, ha.symm, List.append_cancel_right hn⟩

/-- A write inside a call lands in the frame of a call. -/
theorem written (h : Sheltered c y m) (hl : Layered c y.numbers m) {k : Hold}
    (hk : k ∈ m.current.holds) (hkc : k.context = c) {t : Option Token}
    (hy : m'.world.context c = (m.world.context c).put t) : Sheltered c y m' := by
  obtain ⟨ns, hns, hp⟩ := hl.numbers
  obtain ⟨above, ha, hnum⟩ := h.above hns
  have hmem : k.frame ∈ ns := hp.mem_iff.2 (mem_framesOn.2 (hkc ▸ mem_holds_of_current hk))
  have hne : above ≠ [] := by
    rintro rfl
    rw [← hnum] at hmem
    cases hmem
  obtain ⟨hbase, above', hframes, -⟩ := Context.put_above (t := t) ha hne
  exact ⟨by rw [hy, hbase, h.base], ⟨above', by rw [hy, hframes]⟩⟩

theorem released (h : Sheltered c y m) (hl : Layered c y.numbers m) {gone : List (Party × Hold)}
    (hr : Released m m' gone) : Sheltered c y m' := by
  let out := framesOn c (gone.map (·.2))
  have hctx : m'.world.context c =
      { m.world.context c with frames := (m.world.context c).frames.filter (·.number ∉ out) } := by
    rw [hr.world.context, hl.wellNumbered.popAll_eq]
  have hunder : y.frames.filter (·.number ∉ out) = y.frames :=
    List.filter_eq_self.2 fun f hf => decide_eq_true fun hout =>
      hl.not_under ((hr.framesOn c).mem_iff.2 (List.mem_append_left _ hout))
        (List.mem_map.2 ⟨f, hf, rfl⟩)
  refine ⟨hctx ▸ h.base, ?_⟩
  rw [hctx, ← hunder]
  exact h.frames.filter _

theorem step (h : Sheltered c y m) (hl : Layered c y.numbers m) (ht : Turn x m m')
    (hd : m.Disciplined c) (hc : c < m.world.contextCount) : Sheltered c y m' := by
  cases ht.effect (hd.careful hc) with
  | kept _ _ hy => exact ⟨hy ▸ h.base, hy ▸ h.frames⟩
  | written op next t _ _ hm hwr _ hy =>
    rw [Disciplined, hm] at hd
    obtain ⟨k, hk, hkc⟩ := hd.2 hwr
    exact h.written hl hk hkc hy
  | made t _ _ hdc => exact absurd hdc (Nat.ne_of_gt hc)
  | installed i hi =>
    have hctx := hi.context c
    split at hctx
    · exact ⟨hctx ▸ h.base, hctx ▸ h.frames.trans (List.suffix_cons ..)⟩
    · exact ⟨hctx ▸ h.base, hctx ▸ h.frames⟩
  | released gone _ hr => exact h.released hl hr

end Sheltered

/-! ### What the frames of calls show -/

/-- A frame of an installation shows the token that was installed. -/
def Faithful (c : Nat) (hs : List Installation) (m : Machine) : Prop :=
  ∀ i ∈ hs, i.hold.context = c → ∀ f ∈ (m.world.context c).frames,
    f.number = i.hold.frame → f.slot = some i.token

namespace Faithful

theorem of_subset (h : Faithful c hs m)
    (hsub : (m'.world.context c).frames ⊆ (m.world.context c).frames) : Faithful c hs m' :=
  fun i hi hic f hf => h i hi hic f (hsub hf)

/-- A new frame shows its token, and its number is that of no other. -/
theorem installed (h : Faithful c hs m) {l : List Nat} (hl : Layered c l m)
    (hr : Recorded c l hs m) {i : Installation} (hi : Installed x m m' i) :
    Faithful c (hs ++ [i]) m' := by
  have hctx := hi.context c
  intro j hj hjc f hf hfn
  split at hctx <;> rename_i hic <;> rw [hctx] at hf
  · have hnew : i.hold.frame = (m.world.context c).next := hic ▸ hi.frame
    rcases List.mem_append.1 hj with hj | hj <;> rcases List.mem_cons.1 hf with rfl | hf
    · have hlt := hr.below j.hold.frame (mem_framesOn.2 (hjc ▸ List.mem_map.2 ⟨j, hj, rfl⟩))
      exact absurd hfn (Nat.ne_of_gt hlt)
    · exact h j hj hjc f hf hfn
    · rw [List.mem_singleton.1 hj]
    · have hlt := hl.wellNumbered.below f.number (List.mem_map.2 ⟨f, hf, rfl⟩)
      rw [hfn, List.mem_singleton.1 hj, hnew] at hlt
      exact absurd hlt (Nat.lt_irrefl _)
  · rcases List.mem_append.1 hj with hj | hj
    · exact h j hj hjc f hf hfn
    · exact absurd (List.mem_singleton.1 hj ▸ hjc) hic

theorem step (h : Faithful c hs m) {l : List Nat} (hl : Layered c l m) (hr : Recorded c l hs m)
    (ht : Turn x m m') (hd : m.Disciplined c) (hc : c < m.world.contextCount) (ho : m.Idle x c) :
    Faithful c (hs ++ (m.installs x).toList) m' := by
  cases ht.effect (hd.careful hc) with
  | kept _ hnone hy =>
    rw [append_installs hnone]
    exact h.of_subset (by rw [hy]; exact List.Subset.refl _)
  | written op next t _ hnone hm hwr hw hy =>
    rw [append_installs hnone]
    rw [Idle, hm] at ho
    have hsame : t = (m.world.context c).visible := by
      rw [← ho hwr, ← hw, hy, Context.visible_put]
    exact h.of_subset (by rw [hy, hsame, Context.put_visible]; exact List.Subset.refl _)
  | made t _ _ hdc => exact absurd hdc (Nat.ne_of_gt hc)
  | installed i hi =>
    rw [hi.observed]
    exact h.installed hl hr hi
  | released gone hnone hr =>
    rw [append_installs hnone]
    refine h.of_subset ?_
    rw [hr.world.context, hl.wellNumbered.popAll_eq]
    exact List.filter_sublist.subset

end Faithful

/-- Installations have new tokens, made one after another since there were `s` tokens. -/
structure Dated (s : Nat) (hs : List Installation) (m : Machine) : Prop where
  ascending : (hs.map (·.token.serial)).Pairwise (· < ·)
  since : ∀ i ∈ hs, s ≤ i.token.serial
  before : ∀ i ∈ hs, i.token.serial < m.world.tokenCount
  count : s ≤ m.world.tokenCount

theorem Dated.step {s : Nat} (h : Dated s hs m) (ht : Turn x m m') :
    Dated s (hs ++ (m.installs x).toList) m' := by
  have hmore : Dated s hs m' := ⟨h.ascending, h.since,
    fun i hi => Nat.lt_of_lt_of_le (h.before i hi) ht.grows.2, Nat.le_trans h.count ht.grows.2⟩
  cases ht with
  | installed i hi =>
    rw [hi.observed]
    have hcount := hi.tokenCount
    have hserial := hi.serial
    refine ⟨?_, fun j hj => ?_, fun j hj => ?_, hmore.count⟩
    · rw [List.map_append]
      refine List.pairwise_append.2 ⟨h.ascending, List.pairwise_singleton .., fun a ha b hb => ?_⟩
      obtain ⟨j, hj, rfl⟩ := List.mem_map.1 ha
      obtain rfl := List.mem_singleton.1 hb
      show j.token.serial < i.token.serial
      rw [hserial]
      exact h.before j hj
    · rcases List.mem_append.1 hj with hj | hj
      · exact h.since j hj
      · rw [List.mem_singleton.1 hj, hserial]; exact h.count
    · rcases List.mem_append.1 hj with hj | hj
      · exact hmore.before j hj
      · rw [List.mem_singleton.1 hj]; omega
  | operated op next hm => simpa [installs, hm] using hmore
  | begun t hnone => simpa [hnone] using hmore
  | released gone hnone => simpa [hnone] using hmore

/-! ### Runs -/

/-- What a context shows when its frames above those of `y` are the frames of these installations and
show their tokens. -/
theorem Faithful.visible (h : Faithful c hs m) (hsh : Sheltered c y m)
    (hn : (m.world.context c).numbers =
      ((live c hs m).map (·.hold.frame)).reverse ++ y.numbers) :
    (m.world.context c).visible =
      match (live c hs m).getLast? with
      | some i => some i.token
      | none => y.visible := by
  obtain ⟨above, ha, hnum⟩ := hsh.above hn
  rcases List.eq_nil_or_concat (live c hs m) with hlive | ⟨older, i, hlive⟩
  · -- nothing is above the frames of `y`
    rw [hlive] at hnum ⊢
    obtain rfl : above = [] := List.map_eq_nil_iff.1 hnum
    simp only [List.getLast?_nil, Context.visible, ha, hsh.base, List.nil_append]
  · rw [hlive, List.concat_eq_append] at hnum ⊢
    have hi : i ∈ live c hs m := by simp [hlive]
    simp only [live, List.mem_filter, decide_eq_true_eq] at hi
    obtain ⟨f, r, rfl⟩ : ∃ f r, above = f :: r :=
      List.exists_cons_of_ne_nil (by rintro rfl; simp at hnum)
    have hfn : f.number = i.hold.frame := by simpa using congrArg List.head? hnum
    have hslot := h i hi.1.1 hi.1.2 f (by simp [ha]) hfn
    simpa [Context.visible, ha] using hslot

/-- While nothing else is written, a context does not show the token of a call that has ended. -/
theorem Faithful.not_ended (h : Faithful c hs m) (hsh : Sheltered c y m) {s : Nat}
    (hdt : Dated s hs m) (hn : (m.world.context c).numbers =
      ((live c hs m).map (·.hold.frame)).reverse ++ y.numbers)
    (hv : ∀ t, y.visible = some t → t.serial < s) {i : Installation} (hi : i ∈ hs)
    (hend : i ∉ live c hs m) : (m.world.context c).visible ≠ some i.token := by
  rw [h.visible hsh hn]
  split
  · rename_i j hj
    have hjl := List.mem_of_getLast? hj
    have hjh : j ∈ hs := (List.mem_filter.1 (List.mem_filter.1 hjl).1).1
    intro he
    have hnodup : (hs.map (·.token.serial)).Nodup := hdt.ascending.imp Nat.ne_of_lt
    have hji := List.inj_on_of_nodup_map hnodup hjh hi (congrArg Token.serial (Option.some.inj he))
    exact hend (hji ▸ hjl)
  · intro he
    exact absurd (hv i.token he) (Nat.not_lt.2 (hdt.since i hi))

theorem dated_run (x : Executor) (work : Work) (w : World) (n : Nat) :
    Dated w.tokenCount ((start work w).history x n) ((start work w).run x n) := by
  induction n with
  | zero => exact ⟨.nil, nofun, nofun, Nat.le_refl _⟩
  | succ n ih =>
    rw [history_succ']
    exact ih.step (run_turn x work w n)

section Run
variable (x : Executor) (work : Work) {w : World} (n : Nat) (hc : c < w.contextCount)
  (hw : (w.context c).WellNumbered) (hd : ∀ k < n, ((start work w).run x k).Disciplined c)
include hc hw hd

theorem disciplined_run :
    Layered c (w.context c).numbers ((start work w).run x n) ∧
      Recorded c (w.context c).numbers ((start work w).history x n) ((start work w).run x n) :=
  layered_run x work n hw (fun h => absurd hc (Nat.not_lt.2 h)) fun k hk =>
    (hd k hk).careful (Nat.lt_of_lt_of_le hc (run_contextCount_le x work w k))

theorem sheltered_run : Sheltered c (w.context c) ((start work w).run x n) := by
  induction n with
  | zero => exact ⟨rfl, List.suffix_rfl⟩
  | succ n ih =>
    have hdn : ∀ k < n, ((start work w).run x k).Disciplined c := fun k hk =>
      hd k (Nat.lt_succ_of_lt hk)
    exact (ih hdn).step (disciplined_run x work n hc hw hdn).1 (run_turn x work w n)
      (hd n (Nat.lt_succ_self n)) (Nat.lt_of_lt_of_le hc (run_contextCount_le x work w n))

theorem faithful_run (ho : ∀ k < n, ((start work w).run x k).Idle x c) :
    Faithful c ((start work w).history x n) ((start work w).run x n) := by
  induction n with
  | zero => exact nofun
  | succ n ih =>
    have hdn : ∀ k < n, ((start work w).run x k).Disciplined c := fun k hk =>
      hd k (Nat.lt_succ_of_lt hk)
    obtain ⟨hl, hr⟩ := disciplined_run x work n hc hw hdn
    rw [history_succ']
    exact (ih hdn fun k hk => ho k (Nat.lt_succ_of_lt hk)).step hl hr (run_turn x work w n)
      (hd n (Nat.lt_succ_self n)) (Nat.lt_of_lt_of_le hc (run_contextCount_le x work w n))
      (ho n (Nat.lt_succ_self n))

end Run

/-- While parties share a context and write to it only inside calls of their own, base and frames
that it had at first are as they were, under exactly one frame for each call in progress, the latest
on top; so they are all there is once every call has ended. While nobody overwrites what shows, the
context shows the token of the latest call in progress, or what it showed at first, and never that
of a call that has ended. -/
theorem shared_context_kept (x : Executor) (work : Work) (w : World) (c n : Nat)
    (hc : c < w.contextCount) (hr : (w.context c).Reachable)
    (hd : ∀ k < n, ((start work w).run x k).Disciplined c) :
    let m := (start work w).run x n
    let installed := (start work w).history x n
    (m.world.context c).base = (w.context c).base ∧
    (∃ above, (m.world.context c).frames = above ++ (w.context c).frames ∧
      above.map (·.number) = ((live c installed m).map (·.hold.frame)).reverse) ∧
    ((live c installed m).map Installation.owner).Perm (m.owned.filter (·.2.context = c)) ∧
    ((∀ o ∈ m.owned, o.2.context ≠ c) → (m.world.context c).base = (w.context c).base ∧
      (m.world.context c).frames = (w.context c).frames) ∧
    ((∀ k < n, ((start work w).run x k).Idle x c) →
      (m.world.context c).visible =
        (match (live c installed m).getLast? with
        | some i => some i.token
        | none => (w.context c).visible) ∧
      ((∀ t, (w.context c).visible = some t → t.serial < w.tokenCount) →
        ∀ i ∈ installed, i.hold.context = c → i ∉ live c installed m →
          (m.world.context c).visible ≠ some i.token)) := by
  intro m installed
  have hw := hr.wellNumbered
  have hsh := sheltered_run x work n hc hw hd
  have hcr := credited_run x work w n
  obtain ⟨hl, hrec⟩ := disciplined_run x work n hc hw hd
  have hn := numbers_eq_live hl hrec hcr
  have hp := owners_live hl hrec hcr
  obtain ⟨above, ha, hnum⟩ := hsh.above hn
  refine ⟨hsh.base, ⟨above, ha, hnum⟩, hp, fun hnone => ⟨hsh.base, ?_⟩, fun ho => ?_⟩
  · -- without a call in progress no installation is live
    have hempty : m.owned.filter (·.2.context = c) = [] :=
      List.filter_eq_nil_iff.2 fun o ho => by simpa using hnone o ho
    have hlive : live c installed m = [] :=
      List.map_eq_nil_iff.1 (List.perm_nil.1 (hempty ▸ hp))
    have habove : above = [] := List.map_eq_nil_iff.1 (by rw [hnum]; simp [m, installed, hlive])
    rw [ha, habove, List.nil_append]
  · have hf := faithful_run x work n hc hw hd ho
    exact ⟨hf.visible hsh hn, fun hv i hi _ hend =>
      hf.not_ended hsh (dated_run x work w n) hn hv hi hend⟩

/-- A future whose call ends under the frame of a call of the thread that polls it. -/
def overtaken : Work :=
  .future "task" (.call .async ⟨0, .anonymous⟩ (.yield (.done (.ok .null))) .done) <|
  .poll "task" fun _ => .call .sync ⟨0, .anonymous⟩
    (.act (.put 0 none) fun _ => .poll "task" fun _ => .act (.put 0 none) fun _ => .done (.ok .null))
    .done

theorem shared_context_kept_overtaken :
    let y := ((Context.ofToken none).push none).2
    let m := (start overtaken (.bare y)).run (.ofConfig .default) 9
    (m.world.context 0).base = y.base ∧
      ∃ above, (m.world.context 0).frames = above ++ y.frames ∧ above.map (·.number) = [2] := by
  intro y m
  obtain ⟨hbase, ⟨above, ha, hnum⟩, -⟩ := shared_context_kept (.ofConfig .default) overtaken (.bare y)
    0 9 (by decide) (.push none (.new none)) (by decide)
  exact ⟨hbase, above, ha, hnum.trans (by decide)⟩

end Machine
end Guise

import Guise.Proofs.Sharing

/-!
# What a task sees among calls that overlap

A context shows one identity to whoever looks. When calls of several tasks are in progress in it, that is
the identity of the call that began last, so a task sees the identity of its own innermost call exactly when
no other task has a call in progress there that began later (`Overtaken`); a future that is suspended while
another one begins a call, and is polled again before that call has ended, sees the identity of the other.
The calls of a task are nested, so among its own the innermost began last (`frame_le_of_innermost?`).
-/

namespace Guise.Machine
variable {x : Executor} {m : Machine} {c : Nat} {own : Hold} {hs : List Installation} {l : List Nat}

/-- The frame of the innermost call that the running task has in progress in a context. -/
def innermost? (c : Nat) (m : Machine) : Option Hold := m.current.holds.find? (·.context = c)

/-- Another task has a call in progress in a context that began after some frame was handed out. -/
def Overtaken (c frame : Nat) (m : Machine) : Prop :=
  ∃ k ∈ m.others, ∃ h ∈ k.holds, h.context = c ∧ frame < h.frame

instance (c frame : Nat) (m : Machine) : Decidable (m.Overtaken c frame) :=
  inferInstanceAs (Decidable (∃ k ∈ m.others, ∃ h ∈ k.holds, _))

/-- The next step neither writes into a context by hand nor pushes or pops there. -/
def Untouched (c : Nat) (m : Machine) : Prop :=
  m.work.Next (fun op => op.stacked? ≠ some c ∧ op.written? ≠ some c) fun _ => True

instance (c : Nat) (m : Machine) : Decidable (m.Untouched c) :=
  inferInstanceAs (Decidable (m.work.Next _ _))

theorem Untouched.disciplined (h : m.Untouched c) : m.Disciplined c :=
  h.mono (fun _ hop => ⟨hop.1, fun hw => absurd hw hop.2⟩) fun _ => id

theorem Untouched.idle (h : m.Untouched c) : m.Idle x c :=
  h.mono (fun _ hop hw => absurd hw hop.2) fun _ => id

theorem mem_owned {o : Party × Hold} : o ∈ m.owned ↔ ∃ k ∈ m.tasks, k.party = o.1 ∧ o.2 ∈ k.holds := by
  obtain ⟨p, h⟩ := o
  simp only [owned, Task.owned, List.mem_flatMap, List.mem_map, Prod.mk.injEq]
  constructor
  · rintro ⟨k, hk, h', hh, hp, rfl⟩
    exact ⟨k, hk, hp, hh⟩
  · rintro ⟨k, hk, hp, hh⟩
    exact ⟨k, hk, h, hh, hp, rfl⟩

theorem innermost?_eq_some (h : m.innermost? c = some own) :
    own ∈ m.current.holds ∧ own.context = c :=
  ⟨List.mem_of_find?_eq_some h, by simpa using List.find?_some h⟩

/-- Of the calls of the running task in a context, the innermost has the latest frame. -/
theorem frame_le_of_innermost? (hr : Recorded c l hs m) (hcr : Credited hs m)
    (hown : m.innermost? c = some own) {h : Hold} (hh : h ∈ m.current.holds) (hc : h.context = c) :
    h.frame ≤ own.frame := by
  have hsub := (hcr m.current (List.mem_cons_self ..)).map Prod.snd
  have hholds : m.current.owned.map Prod.snd = m.current.holds := by simp [Task.owned, Function.comp_def]
  have hhistory : (hs.map Installation.owner).reverse.map Prod.snd = (hs.map (·.hold)).reverse := by
    simp [Installation.owner, Function.comp_def]
  rw [hholds, hhistory] at hsub
  have hdesc : (framesOn c m.current.holds).Pairwise (· > ·) := by
    have hframes : framesOn c (hs.map (·.hold)).reverse = (framesOn c (hs.map (·.hold))).reverse := by
      simp [framesOn, List.filter_reverse]
    have hall : (framesOn c (hs.map (·.hold)).reverse).Pairwise (· > ·) :=
      hframes ▸ List.pairwise_reverse.2 hr.ascending
    exact hall.sublist ((hsub.filter _).map _)
  have hhead : (m.current.holds.filter (·.context = c)).head? = some own :=
    (List.head?_filter ..).trans hown
  obtain ⟨rest, hrest⟩ := List.head?_eq_some_iff.1 hhead
  have hmem : h ∈ own :: rest := hrest ▸ List.mem_filter.2 ⟨hh, by simpa using hc⟩
  rw [framesOn, hrest, List.map_cons, List.pairwise_cons] at hdesc
  rcases List.mem_cons.1 hmem with rfl | hmem
  · exact Nat.le_refl _
  · exact Nat.le_of_lt (hdesc.1 h.frame (List.mem_map.2 ⟨h, hmem, rfl⟩))

theorem mem_live {i : Installation} :
    i ∈ live c hs m ↔ i ∈ hs ∧ i.hold.context = c ∧ i.owner ∈ m.owned := by
  simp only [live, List.mem_filter, decide_eq_true_eq, and_assoc]

section Live
variable (hl : Layered c l m) (hr : Recorded c l hs m) (hcr : Credited hs m)
include hr

/-- No call in progress in a context has a later frame than the last. -/
theorem frame_le_of_getLast? {latest : Installation} (hlatest : (live c hs m).getLast? = some latest)
    {i : Installation} (hi : i ∈ live c hs m) : i.hold.frame ≤ latest.hold.frame := by
  obtain ⟨older, holder⟩ := List.getLast?_eq_some_iff.1 hlatest
  have hasc := live_ascending hr
  rw [holder, List.map_append, List.pairwise_append] at hasc
  rw [holder] at hi
  rcases List.mem_append.1 hi with hi | hi
  · exact Nat.le_of_lt (hasc.2.2 _ (List.mem_map.2 ⟨i, hi, rfl⟩) _ (by simp))
  · exact Nat.le_of_eq (congrArg (·.hold.frame) (List.mem_singleton.1 hi))

include hl hcr

theorem mem_live_of_owned {o : Party × Hold} (ho : o ∈ m.owned) (hc : o.2.context = c) :
    ∃ i ∈ live c hs m, i.owner = o := by
  have hmem : o ∈ m.owned.filter (·.2.context = c) := List.mem_filter.2 ⟨ho, by simpa using hc⟩
  exact List.mem_map.1 ((owners_live hl hr hcr).mem_iff.2 hmem)

/-- The latest call in progress in a context is the innermost of the running task exactly when no other
task has begun one since. -/
theorem latest_eq_iff {mine latest : Installation} (hown : m.innermost? c = some own)
    (hmine : mine ∈ live c hs m) (howner : mine.owner = (m.current.party, own))
    (hlatest : (live c hs m).getLast? = some latest) :
    latest = mine ↔ ¬ m.Overtaken c own.frame := by
  have hframe : mine.hold.frame = own.frame := congrArg (·.2.frame) howner
  constructor
  · rintro rfl ⟨k, hk, h, hh, hc, hlt⟩
    obtain ⟨i, hi, hio⟩ := mem_live_of_owned hl hr hcr (o := (k.party, h))
      (mem_owned.2 ⟨k, List.mem_cons_of_mem _ hk, rfl, hh⟩) hc
    have hiframe : i.hold.frame = h.frame := congrArg (·.2.frame) hio
    have hle := frame_le_of_getLast? hr hlatest hi
    omega
  · intro hnone
    obtain ⟨hlh, hlc, howned⟩ := mem_live.1 (List.mem_of_getLast? hlatest)
    obtain ⟨hmh, hmc, -⟩ := mem_live.1 hmine
    obtain ⟨k, hk, -, hh⟩ := mem_owned.1 howned
    have hle : latest.hold.frame ≤ own.frame := by
      rcases List.mem_cons.1 hk with rfl | hk
      · exact frame_le_of_innermost? hr hcr hown hh hlc
      · exact Nat.not_lt.1 fun hlt => hnone ⟨k, hk, latest.hold, hh, hlc, hlt⟩
    have hge := frame_le_of_getLast? hr hlatest hmine
    exact eq_of_frame hr hlh hmh hlc hmc (by omega)

end Live

/-- While nobody writes into a context, a task that looks at it inside a call of its own sees the token of
the call that began last among those in progress there, whoever made it. That is the token of the task's own
innermost call exactly when no other task has a call in progress there that began later, and it is never
that of a call that has ended. -/
theorem latest_call_shows (x : Executor) (work : Work) (w : World) (c n : Nat) (hc : c < w.contextCount)
    (hr : (w.context c).Reachable) (hu : ∀ k < n, ((start work w).run x k).Untouched c) :
    let m := (start work w).run x n
    let installed := (start work w).history x n
    ∀ own, m.innermost? c = some own →
      ∃ mine latest, mine ∈ live c installed m ∧ mine.owner = (m.current.party, own) ∧
        (live c installed m).getLast? = some latest ∧
        (∀ next, m.work = .act (.look c .visible) next → (m.step x).work = next (some latest.token)) ∧
        ((m.world.context c).visible = some mine.token ↔ ¬ m.Overtaken c own.frame) ∧
        ∀ i ∈ installed, i.hold.context = c → i.owner ∉ m.owned →
          (m.world.context c).visible ≠ some i.token := by
  intro m installed own hown
  have hw := hr.wellNumbered
  have hd : ∀ k < n, ((start work w).run x k).Disciplined c := fun k hk => (hu k hk).disciplined
  have hsh := sheltered_run x work n hc hw hd
  have hcr := credited_run x work w n
  obtain ⟨hl, hrec⟩ := disciplined_run x work n hc hw hd
  have hf := faithful_run x work n hc hw hd fun k hk => (hu k hk).idle
  obtain ⟨hmem, hoc⟩ := innermost?_eq_some hown
  obtain ⟨mine, hmine, howner⟩ := mem_live_of_owned hl hrec hcr (o := (m.current.party, own))
    (mem_owned.2 ⟨m.current, List.mem_cons_self .., rfl, hmem⟩) hoc
  obtain ⟨latest, hlatest⟩ := Option.isSome_iff_exists.1
    (List.getLast?_isSome.2 (List.ne_nil_of_mem hmine))
  obtain ⟨hlh, -, hlowned⟩ := mem_live.1 (List.mem_of_getLast? hlatest)
  have hvisible : (m.world.context c).visible = some latest.token := by
    rw [hf.visible hsh (numbers_eq_live hl hrec hcr), hlatest]
  -- tokens are all different, so the one that shows tells its installation
  have htoken : ∀ i ∈ installed, (m.world.context c).visible = some i.token → latest = i := by
    intro i hi heq
    rw [hvisible] at heq
    exact List.inj_on_of_nodup_map ((dated_run x work w n).ascending.imp Nat.ne_of_lt) hlh hi
      (congrArg Token.serial (Option.some.inj heq))
  refine ⟨mine, latest, hmine, howner, hlatest, fun next hm => ?_, ?_, fun i hi _ hend heq => ?_⟩
  · rw [← hvisible]
    simp only [step, hm]
    rfl
  · rw [← latest_eq_iff hl hrec hcr hown hmine howner hlatest]
    exact ⟨htoken mine (mem_live.1 hmine).1, fun heq => heq ▸ hvisible⟩
  · exact hend (htoken i hi heq ▸ hlowned)

/-- Two futures with calls in one context: the first is polled again while the call of the second is in
progress, and looks. -/
def overlapped : Work :=
  .future "a" (.call .async ⟨0, .anonymous⟩
    (.yield (.act (.look 0 .visible) fun _ => .done (.ok .null))) .done) <|
  .future "b" (.call .async ⟨0, .identity ⟨"admin", .empty, .system⟩⟩ (.yield (.done (.ok .null))) .done) <|
  .poll "a" fun _ => .poll "b" fun _ => .poll "a" fun _ => .done (.ok .null)

theorem latest_call_shows_overlapped :
    let x := Executor.ofConfig .default
    let m := (start overlapped (.bare .empty)).run x 9
    m.innermost? 0 = some ⟨0, 0⟩ ∧ m.Overtaken 0 0 ∧
      ∃ mine latest : Installation, mine.owner = (.future "a", ⟨0, 0⟩) ∧
        (live 0 ((start overlapped (.bare .empty)).history x 9) m).getLast? = some latest ∧
        (m.step x).work = .done (.ok .null) ∧ (m.world.context 0).visible ≠ some mine.token := by
  intro x m
  have hown : m.innermost? 0 = some ⟨0, 0⟩ := by decide
  have hovertaken : m.Overtaken 0 0 := by decide
  have hparty : m.current.party = .future "a" := by decide
  have hlooks : ((start overlapped (.bare .empty)).run (.ofConfig .default) 9).work =
      .act (.look 0 .visible) fun _ => .done (.ok .null) := by rfl
  obtain ⟨mine, latest, -, howner, hlatest, hlook, hiff, -⟩ :=
    latest_call_shows x overlapped (.bare .empty) 0 9 (by decide) (.new none) (by decide) _ hown
  refine ⟨hown, hovertaken, mine, latest, ?_, hlatest, ?_, ?_⟩
  · rw [howner, hparty]
  · exact hlook _ hlooks
  · intro h
    exact hiff.1 h hovertaken

/-- A future does not always see the identity of its own innermost call, although nobody writes: while it
is suspended another one may begin a call in the same context. -/
theorem own_call_hidden : ¬ ∀ (x : Executor) (work : Work) (w : World) (c n : Nat),
    c < w.contextCount → (w.context c).Reachable →
    (∀ k < n, ((start work w).run x k).Untouched c) →
    let m := (start work w).run x n
    ∀ name own, m.current.party = .future name → m.innermost? c = some own →
      ∃ i ∈ (start work w).history x n, i.owner = (.future name, own) ∧
        (m.world.context c).visible = some i.token := by
  intro h
  obtain ⟨i, hi, howner, hvisible⟩ := h (.ofConfig .default) overlapped (.bare .empty) 0 9 (by decide)
    (.new none) (by decide) "a" ⟨0, 0⟩ (by decide) (by decide)
  have hother : ∀ i ∈ (start overlapped (.bare .empty)).history (.ofConfig .default) 9,
      i.owner = (.future "a", ⟨0, 0⟩) →
      (((start overlapped (.bare .empty)).run (.ofConfig .default) 9).world.context 0).visible ≠
        some i.token := by
    decide
  exact hother i hi howner hvisible

end Guise.Machine

import Guise.Proofs.Numbering

/-!
# Values that change hands

A replacement puts a value into the slot that shows and returns what was there, both at once. So as long as
nobody does anything else to a context, each replacement returns what the one before it has passed
(`Exchange.Chained`), whoever made the two and whatever came between them, and the context is as it was but
for the value passed last. Of a chain nothing is lost and nothing is doubled (`Chained.perm`). A step that
sets and clears nothing and leaves the frames their numbers either makes an exchange or leaves the context
alone: to install a frame adds a number, and pops that take no number away pop nothing
(`Context.popAll_eq_self`).
-/

namespace Guise

/-! ### Chains -/

/-- A replacement of what a context shows: who made it, what was passed, and what was returned for it. -/
structure Exchange where
  party : Party
  passed : Option Token
  returned : Option Token
  deriving DecidableEq

namespace Exchange
variable {first : Option Token} {es es' before after : List Exchange} {e : Exchange}

/-- The value passed last, or the first value when none was passed. -/
def latest (first : Option Token) (es : List Exchange) : Option Token :=
  (es.map (·.passed)).getLastD first

/-- The first exchange returns the first value, and every other what the one before it has passed. -/
def Chained : Option Token → List Exchange → Prop
  | _, [] => True
  | first, e :: es => e.returned = first ∧ Chained e.passed es

theorem latest_cons (first : Option Token) (e : Exchange) (es : List Exchange) :
    latest first (e :: es) = latest e.passed es := List.getLastD_cons ..

theorem latest_append (first : Option Token) (es es' : List Exchange) :
    latest first (es ++ es') = latest (latest first es) es' := by
  induction es generalizing first with
  | nil => rfl
  | cons e es ih => rw [List.cons_append, latest_cons, latest_cons, ih]

theorem chained_append :
    Chained first (es ++ es') ↔ Chained first es ∧ Chained (latest first es) es' := by
  induction es generalizing first with
  | nil => exact (iff_of_eq (true_and _)).symm
  | cons e es ih => rw [List.cons_append, Chained, Chained, ih, latest_cons, and_assoc]

namespace Chained

theorem returned_eq (h : Chained first (before ++ e :: after)) : e.returned = latest first before :=
  (chained_append.1 h).2.1

/-- What exchanges return, with what is there after them, is what they pass, with what was there before. -/
theorem perm (h : Chained first es) :
    (latest first es :: es.map (·.returned)).Perm (first :: es.map (·.passed)) := by
  induction es generalizing first with
  | nil => exact .refl _
  | cons e es ih =>
    obtain ⟨rfl, hes⟩ := h
    rw [latest_cons, List.map_cons, List.map_cons]
    exact (List.Perm.swap ..).trans ((ih hes).cons e.returned)

end Chained

end Exchange

/-! ### Steps -/

namespace Context
variable {y : Context} {ns : List Nat}

theorem popAll_numbers_sublist (y : Context) (ns : List Nat) : (y.popAll ns).numbers.Sublist y.numbers := by
  induction ns generalizing y with
  | nil => exact .refl _
  | cons n ns ih => exact (ih _).trans (pop_numbers_sublist y n)

theorem pop_eq_self {n : Nat} (h : (y.pop n).2.numbers = y.numbers) : (y.pop n).2 = y := by
  unfold pop at h ⊢
  split at h <;> rename_i hany
  · -- a frame would be missing
    obtain ⟨f, hf, hfn⟩ := List.any_eq_true.1 hany
    have hlength := List.length_eraseP_of_mem (p := (·.number == n)) hf hfn
    have hpos := List.length_pos_of_mem hf
    have hsame : (y.frames.eraseP (·.number == n)).length = y.frames.length := by
      simpa [numbers] using congrArg List.length h
    omega
  · rw [if_neg hany]

theorem popAll_eq_self (h : (y.popAll ns).numbers = y.numbers) : y.popAll ns = y := by
  induction ns generalizing y with
  | nil => rfl
  | cons n ns ih =>
    have hrest := popAll_numbers_sublist (y.pop n).2 ns
    rw [← popAll_cons, h] at hrest
    have hpop : (y.pop n).2 = y :=
      pop_eq_self ((pop_numbers_sublist y n).antisymm hrest)
    rw [popAll_cons, hpop] at h ⊢
    exact ih h

end Context

namespace Op
variable {x : Executor} {w : World} {op : Op} {c : Nat} {y : Context}

/-- The context of which an operation sets or clears what shows, without returning what was there. -/
def overwritten? : Op → Option Nat
  | .put c _ => some c
  | _ => none

/-- The exchange that is made when somebody becomes a user: a new token is passed, if the user resolves. -/
def becomeExchange? (x : Executor) (w : World) (p : Party) (c : Nat) (user : String) : Option Exchange :=
  match (x.identify w.lookups none user).value, (performBecome x w c user).1 with
  | .ok i, .ok previous => some ⟨p, some ⟨w.tokenCount, i⟩, previous⟩
  | _, _ => none

/-- The exchange that an operation makes in a context. -/
def exchange? (x : Executor) (w : World) (p : Party) (c : Nat) : Op → Option Exchange
  | .replace d t => if d = c then some ⟨p, t, ((w.context d).replace t).1⟩ else none
  | .become d user => if d = c then becomeExchange? x w p d user else none
  | _ => none

/-- An operation that neither writes to a context nor changes the numbers there leaves it as it is. -/
theorem Change.eq_of_numbers (h : op.Change w c y) (hwr : op.written? ≠ some c)
    (hc : c < w.contextCount) (hn : y.numbers = (w.context c).numbers) : y = w.context c := by
  cases h with
  | stays hy => exact hy
  | written t hop => exact absurd hop hwr
  | pushed t _ hy =>
    rw [hy, Context.numbers_push] at hn
    exact absurd hn (List.cons_ne_self _ _)
  | popped n _ hy =>
    rw [hy] at hn ⊢
    exact Context.pop_eq_self hn
  | made t hmade => exact absurd hmade (Nat.ne_of_gt hc)

theorem exchange?_eq_none (p : Party) (hwr : op.written? ≠ some c) : op.exchange? x w p c = none := by
  cases op with
  | replace d t | become d user => exact if_neg fun hd => hwr (congrArg some hd)
  | _ => rfl

theorem becomeExchange?_eq_some {user : String} {i : Identity} (p : Party) (c : Nat)
    (hi : (x.identify w.lookups none user).value = .ok i) :
    becomeExchange? x w p c user = some ⟨p, some ⟨w.tokenCount, i⟩, (w.context c).visible⟩ := by
  have h := performBecome_cases x w c user
  rw [hi] at h
  rw [becomeExchange?, hi, h.1]

theorem become_exchanges (x : Executor) (w : World) (p : Party) (c : Nat) (user : String) :
    let es := (becomeExchange? x w p c user).toList
    Exchange.Chained (w.context c).visible es ∧ (performBecome x w c user).2.context c =
      (w.context c).put (Exchange.latest (w.context c).visible es) := by
  have h := performBecome_cases x w c user
  split at h <;> rename_i hv
  · rw [becomeExchange?_eq_some p c hv]
    refine ⟨⟨rfl, trivial⟩, ?_⟩
    rw [h.2.context, World.context_setContext, if_pos rfl]
    rfl
  all_goals
    -- without an identity nothing is passed and no context changes
    rw [becomeExchange?, hv]
    refine ⟨trivial, ?_⟩
    rw [h.2.context]
    exact (Context.put_visible _).symm

/-- An operation that sets and clears nothing in a context, and leaves the numbers there, leaves what it
exchanges, or the context as it was. -/
theorem perform_exchanges (p : Party) (hset : op.overwritten? ≠ some c) (hc : c < w.contextCount)
    (hn : ((op.perform x w).2.context c).numbers = (w.context c).numbers) :
    let es := (op.exchange? x w p c).toList
    Exchange.Chained (w.context c).visible es ∧ (op.perform x w).2.context c =
      (w.context c).put (Exchange.latest (w.context c).visible es) := by
  by_cases hwr : op.written? = some c
  · cases op with
    | put d t => exact absurd hwr hset
    | replace d t =>
      obtain rfl := Option.some.inj hwr
      rw [exchange?, if_pos rfl]
      refine ⟨⟨rfl, trivial⟩, ?_⟩
      exact (World.context_setContext ..).trans (if_pos rfl)
    | become d user =>
      obtain rfl := Option.some.inj hwr
      rw [exchange?, if_pos rfl]
      exact become_exchanges x w p d user
    | _ => cases hwr
  · have hctx := (perform_change x w op c).eq_of_numbers hwr hc hn
    rw [exchange?_eq_none p hwr]
    exact ⟨trivial, hctx.trans (Context.put_visible _).symm⟩

end Op

namespace Machine
variable {x : Executor} {m m' : Machine} {c : Nat}

/-- The exchange that the next step makes in a context. -/
def exchange? (x : Executor) (c : Nat) (m : Machine) : Option Exchange :=
  match m.work with
  | .act op _ => op.exchange? x m.world m.current.party c
  | _ => none

/-- The exchanges that so many steps make in a context, in order. -/
def exchanges (x : Executor) (c : Nat) (m : Machine) (n : Nat) : List Exchange :=
  (List.range n).filterMap fun k => (m.run x k).exchange? x c

/-- The next step sets or clears nothing in a context, and no frame is pushed or popped there: it may look
and replace what shows, or do whatever it likes elsewhere. -/
def Exchanging (x : Executor) (c : Nat) (m : Machine) : Prop :=
  m.work.Next (·.overwritten? ≠ some c) (fun _ => True) ∧
    ((m.step x).world.context c).numbers = (m.world.context c).numbers

instance (x : Executor) (c : Nat) (m : Machine) : Decidable (m.Exchanging x c) :=
  inferInstanceAs (Decidable (m.work.Next _ _ ∧ _))

theorem exchanges_succ (x : Executor) (c : Nat) (m : Machine) (n : Nat) :
    m.exchanges x c (n + 1) = m.exchanges x c n ++ ((m.run x n).exchange? x c).toList :=
  filterMap_run_succ (exchange? x c) x m n

theorem Turn.context_eq (h : Turn x m m') (hop : ¬ ∃ op next, m.work = .act op next)
    (hc : c < m.world.contextCount)
    (hn : (m'.world.context c).numbers = (m.world.context c).numbers) :
    m'.world.context c = m.world.context c := by
  cases h with
  | operated op next hm => exact absurd ⟨op, next, hm⟩ hop
  | installed i hi =>
    have hctx := hi.context c
    split at hctx
    · rw [hctx, Context.numbers_push] at hn
      exact absurd hn (List.cons_ne_self _ _)
    · exact hctx
  | begun t _ hb =>
    rcases hb.context c with hy | ⟨hmade, -⟩
    · exact hy
    · exact absurd hmade (Nat.ne_of_gt hc)
  | released gone _ hr =>
    have hctx := hr.world.context c
    rw [hctx] at hn ⊢
    exact Context.popAll_eq_self hn

theorem Exchanging.step (h : m.Exchanging x c) (ht : Turn x m (m.step x))
    (hc : c < m.world.contextCount) :
    Exchange.Chained (m.world.context c).visible (m.exchange? x c).toList ∧
      (m.step x).world.context c = (m.world.context c).put
        (Exchange.latest (m.world.context c).visible (m.exchange? x c).toList) := by
  by_cases hop : ∃ op next, m.work = .act op next
  · obtain ⟨hset, hn⟩ := h
    obtain ⟨op, next, hm⟩ := hop
    have hworld : (m.step x).world = (op.perform x m.world).2 := by
      rw [Machine.step, hm]
    rw [hm] at hset
    rw [hworld] at hn ⊢
    rw [exchange?, hm]
    exact Op.perform_exchanges m.current.party hset hc hn
  · -- calls, futures and threads write to no slot that they leave where it is
    have hctx := ht.context_eq hop hc h.2
    have hnone : m.exchange? x c = none := by
      unfold exchange?
      split
      · rename_i op next hm
        exact absurd ⟨op, next, hm⟩ hop
      · rfl
    rw [hnone]
    exact ⟨trivial, hctx.trans (Context.put_visible _).symm⟩

/-- The exchanges of a run are chained, and leave the value passed last. -/
theorem run_exchanges (x : Executor) (work : Work) {w : World} {n k : Nat}
    (hc : c < ((start work w).run x n).world.contextCount)
    (h : ∀ j < k, ((start work w).run x (n + j)).Exchanging x c) :
    let m := (start work w).run x n
    let y := m.world.context c
    Exchange.Chained y.visible (m.exchanges x c k) ∧
      (m.run x k).world.context c = y.put (Exchange.latest y.visible (m.exchanges x c k)) := by
  intro m y
  induction k with
  | zero => exact ⟨trivial, (Context.put_visible y).symm⟩
  | succ k ih =>
    obtain ⟨hchained, hctx⟩ := ih fun j hj => h j (Nat.lt_succ_of_lt hj)
    have hrun : (start work w).run x (n + k) = m.run x k := run_add ..
    have ht : Turn x (m.run x k) ((m.run x k).step x) := by
      have ht := run_turn x work w (n + k)
      rwa [run_succ', hrun] at ht
    have hck : c < (m.run x k).world.contextCount := hrun ▸ (run_leads x work w hc k).2
    -- what shows before the step is the value passed last until then
    obtain ⟨hnext, hstep⟩ := (hrun ▸ h k (Nat.lt_succ_self k)).step ht hck
    rw [hctx, Context.visible_put] at hnext hstep
    rw [exchanges_succ, run_succ']
    refine ⟨Exchange.chained_append.2 ⟨hchained, hnext⟩, ?_⟩
    rw [hstep, Context.put_put, Exchange.latest_append]

/-- To replace what shows tells what showed, and is an exchange of the two. -/
theorem replace_exchanges {t : Option Token} {next : Option Token → Work}
    (hm : m.work = .act (.replace c t) next) :
    m.exchange? x c = some ⟨m.current.party, t, (m.world.context c).visible⟩ ∧
      (m.step x).work = next (m.world.context c).visible := by
  constructor
  · rw [exchange?, hm]
    exact if_pos rfl
  · rw [step, hm]
    rfl

theorem become_exchanges {user : String} {next : Outcome ResolutionError (Option Token) → Work}
    {i : Identity} (hm : m.work = .act (.become c user) next)
    (hi : (x.identify m.world.lookups none user).value = .ok i) :
    m.exchange? x c = some ⟨m.current.party, some ⟨m.world.tokenCount, i⟩, (m.world.context c).visible⟩ ∧
      (m.step x).work = next (.ok (m.world.context c).visible) := by
  have h := Op.performBecome_cases x m.world c user
  rw [hi] at h
  constructor
  · rw [exchange?, hm]
    exact (if_pos rfl).trans (Op.becomeExchange?_eq_some _ c hi)
  · rw [step, hm, ← h.1]
    rfl

/-- Exchanges lose nothing and double nothing. As long as nobody sets or clears what a context shows, and no
frame of it is pushed or popped, the values returned to all who replace what shows, with the value that shows
at the end, are the values passed by all of them, with the one that showed at first, each as often. Each of
them gets the value passed by the one before, whoever that was, the first the value that showed at first, and
so does whoever looks. At every moment the context is what it was at first, but for the slot that shows, which
has the value passed last. -/
theorem exchanges_conserve_values (x : Executor) (work : Work) (w : World) (c n k : Nat) :
    let m := fun j => (start work w).run x (n + j)
    let y := fun j => (m j).world.context c
    let es := fun j => (m 0).exchanges x c j
    let latest := fun j => Exchange.latest (y 0).visible (es j)
    c < (m 0).world.contextCount → (∀ j < k, (m j).Exchanging x c) →
    ((y k).visible :: (es k).map (·.returned)).Perm ((y 0).visible :: (es k).map (·.passed)) ∧
    (∀ before (e : Exchange) after, es k = before ++ e :: after →
      e.returned = Exchange.latest (y 0).visible before) ∧
    (∀ j ≤ k, y j = (y 0).put (latest j)) ∧
    ∀ j < k,
      (∀ t next, (m j).work = .act (.replace c t) next →
        es (j + 1) = es j ++ [⟨(m j).current.party, t, latest j⟩] ∧ (m (j + 1)).work = next (latest j)) ∧
      (∀ user next i, (m j).work = .act (.become c user) next →
        (x.identify (m j).world.lookups none user).value = .ok i →
        es (j + 1) = es j ++ [⟨(m j).current.party, some ⟨(m j).world.tokenCount, i⟩, latest j⟩] ∧
          (m (j + 1)).work = next (.ok (latest j))) ∧
      ∀ next, (m j).work = .act (.look c .visible) next → (m (j + 1)).work = next (latest j) := by
  intro m y es latest hc h
  have hrun : ∀ j, (m 0).run x j = m j := fun j => (run_add x n j (start work w)).symm
  have hmain : ∀ j ≤ k, Exchange.Chained (y 0).visible (es j) ∧ y j = (y 0).put (latest j) := by
    intro j hj
    obtain ⟨hchained, hctx⟩ := run_exchanges x work hc fun i hi => h i (Nat.lt_of_lt_of_le hi hj)
    exact ⟨hchained, (congrArg (·.world.context c) (hrun j)).symm.trans hctx⟩
  have hshows : ∀ j ≤ k, (y j).visible = latest j := by
    intro j hj
    rw [(hmain j hj).2, Context.visible_put]
  have hes : ∀ j, es (j + 1) = es j ++ ((m j).exchange? x c).toList := by
    intro j
    rw [← hrun j]
    exact exchanges_succ x c (m 0) j
  have hstep : ∀ j, m (j + 1) = (m j).step x := fun j => run_succ' x (n + j) (start work w)
  obtain ⟨hchained, -⟩ := hmain k (Nat.le_refl k)
  refine ⟨?_, fun before e after hsplit => ?_, fun j hj => (hmain j hj).2, fun j hj => ⟨?_, ?_, ?_⟩⟩
  · rw [hshows k (Nat.le_refl k)]
    exact hchained.perm
  · exact (hsplit ▸ hchained : Exchange.Chained _ (before ++ e :: after)).returned_eq
  · intro t next hm
    obtain ⟨he, hwork⟩ := replace_exchanges (x := x) hm
    rw [hes, he, hstep, hwork, ← hshows j (Nat.le_of_lt hj)]
    exact ⟨rfl, rfl⟩
  · intro user next i hm hi
    obtain ⟨he, hwork⟩ := become_exchanges hm hi
    rw [hes, he, hstep, hwork, ← hshows j (Nat.le_of_lt hj)]
    exact ⟨rfl, rfl⟩
  · intro next hm
    rw [hstep, ← hshows j (Nat.le_of_lt hj), step, hm]
    rfl

/-- A thread passes a token and pauses; another looks, becomes a user and lets the first go on, which passes
back what it got; and the other clears the slot by passing nothing. -/
def passedAround (t : Token) : Work :=
  .thread "a" false (.act (.replace 0 (some t)) fun got => .pause fun _ =>
    .act (.replace 0 got) fun _ => .done (.ok .null)) fun _ =>
  .act (.look 0 .visible) fun _ => .act (.become 0 "ann") fun _ =>
  .resume "a" fun _ => .act (.replace 0 none) fun _ => .done (.ok .null)

theorem exchanges_conserve_values_passedAround :
    let x := Executor.ofConfig .default
    let t := fun n : Nat => (⟨n, x.anonymous⟩ : Token)
    let y := ((Context.ofToken (some (t 0))).push (some (t 1))).2
    let w := World.start y 3 (.ofStores .empty .empty) false
    let m := start (passedAround (t 2)) w
    let es := m.exchanges x 0 9
    let z := (m.run x 9).world.context 0
    (∀ j < 9, (m.run x j).Exchanging x 0) ∧
      es.map (·.party) = [.thread 1, .thread 0, .thread 1, .thread 0] ∧
      es.map (·.returned) = [some (t 1), some (t 2), some ⟨3, ⟨"ann", .empty, .user⟩⟩, some (t 1)] ∧
      (z.visible :: es.map (·.returned)).Perm (some (t 1) :: es.map (·.passed)) ∧
      z = y.put none ∧ z.base = some (t 0) := by
  intro x t y w m es z
  have h : ∀ j < 9, (m.run x (0 + j)).Exchanging x 0 := by decide
  obtain ⟨hperm, -, hctx, -⟩ := exchanges_conserve_values x (passedAround (t 2)) w 0 0 9 (by decide) h
  have hz : z = y.put none := (hctx 9 (Nat.le_refl 9)).trans (congrArg y.put (by decide))
  exact ⟨by decide, by decide, by decide, hperm, hz, by rw [hz]; rfl⟩

end Machine
end Guise

import Guise.Proofs.Restoring

/-!
# Frames against a single cell

`Cell` is an executor without frames: a call saves the content of its one cell, stores the new
token, runs its work and stores the saved content back, however the work ends. On one context and
one thread the frames show no more than that: `Cell.Mirrors` relates the two by what shows, and a
program answers alike on both (`Program.eval_onCell`). Where the cell keeps a saved content, the
context keeps the slot under the frame of the call; that this slot stays what it was is
`World.leave_of_enter`.
-/

namespace Guise

/-- One cell, with what else a program on one context can tell apart. -/
structure Cell where
  shown : Option Token
  tokenCount : Nat
  lookups : Lookups

namespace Cell

/-- What a look at the cell answers; a cell has no depth. -/
def look? (x : Executor) (t : Option Token) : (l : Look) → Option l.Answer
  | .visible => some t
  | .principal => some (t.map (·.identity.principal))
  | .isAuthenticated => some t.isSome
  | .has authority => some (t.any (·.identity.has authority))
  | .isAdministrator => some (t.any fun t => x.isAdministrator t.identity)
  | .depth => none

/-- Makes a token of an identity and stores it. -/
def store (s : Cell) (i : Identity) : Cell :=
  { s with shown := some ⟨s.tokenCount, i⟩, tokenCount := s.tokenCount + 1 }

/-- Stores a user and gives what was there. -/
def become (x : Executor) (s : Cell) (principal : String) :
    Outcome ResolutionError (Option Token) × Cell :=
  match (x.identify s.lookups none principal).value with
  | .ok i => (.ok s.shown, s.store i)
  | .error e => (.error e, s)
  | .panic text => (.panic text, s)

/-- An operation on the cell that stands for a context; other operations a cell does not have. -/
def perform? (x : Executor) (c : Nat) (s : Cell) : (op : Op) → Option (op.Answer × Cell)
  | .look d l => if d = c then (look? x s.shown l).map (·, s) else none
  | .put d t => if d = c then some ((), { s with shown := t }) else none
  | .replace d t => if d = c then some (s.shown, { s with shown := t }) else none
  | .become d principal => if d = c then some (s.become x principal) else none
  | .mint i => some (⟨s.tokenCount, i⟩, { s with tokenCount := s.tokenCount + 1 })
  | .resolve q => some ((q.answer x s.lookups).value, s)
  | .arrange edit => some ((), { s with lookups := edit.apply s.lookups })
  | .registered key => some (s.lookups.registry.name? key, s)
  | _ => none

/-- The identity that a call stores. -/
def resolve (x : Executor) (s : Cell) : Assumed → Outcome ResolutionError Identity
  | .system => (x.system s.lookups).value
  | .anonymous => .ok x.anonymous
  | .user principal => (x.identify s.lookups none principal).value
  | .identity i => .ok i

end Cell

/-- The course of a program on the cell that stands for a context: what it gets to know, its ending,
and the cell after it. Every call puts back the content that it saved. -/
def Program.onCell? (x : Executor) (c : Nat) : Program → Cell → Option (List Event × Ending × Cell)
  | .done e, s => some ([], e, s)
  | .act op next, s => do
    let (a, s) ← s.perform? x c op
    let (es, e, s) ← (next a).onCell? x c s
    pure (.answered op a :: es, e, s)
  | .call k body next, s =>
    if k.context = c then
      match s.resolve x k.assumed with
      | .ok i => do
        let saved := s.shown
        let (es, e, s) ← body.onCell? x c (s.store i)
        let (fs, f, s) ← (next e).onCell? x c { s with shown := saved }
        pure (es ++ .ended e :: fs, f, s)
      | .error err => do
        let e : Ending := .error (.resolution err)
        let (fs, f, s) ← (next e).onCell? x c s
        pure (.ended e :: fs, f, s)
      | .panic text => do
        let (fs, f, s) ← (next (.panic text)).onCell? x c s
        pure (.ended (.panic text) :: fs, f, s)
    else none

/-- Operations that a cell has: looks other than at the depth and writes, on one context, and what
concerns no context. -/
def Op.OnCell (c : Nat) : Op → Prop
  | .look _ .depth => False
  | .look d _ | .put d _ | .replace d _ | .become d _ => d = c
  | .mint _ | .resolve _ | .arrange _ | .registered _ => True
  | _ => False

/-- The program uses one context only, as if it were a cell. -/
def Program.OnCell (c : Nat) (p : Program) : Prop := p.Uses (Op.OnCell c) (·.context = c)

theorem Op.OnCell.not_stacked {c : Nat} {op : Op} (h : op.OnCell c) : op.stacked? ≠ some c := by
  cases op with
  | push | pop => exact h.elim
  | _ => simp [Op.stacked?]

theorem Program.OnCell.scoped {c : Nat} {p : Program} (h : p.OnCell c) : p.Scoped c :=
  h.mono (fun _ => Op.OnCell.not_stacked) fun _ _ => trivial

namespace Cell

/-- The cell shows what the context shows, and agrees on tokens and collaborators. -/
structure Mirrors (s : Cell) (c : Nat) (w : World) : Prop where
  shown : s.shown = (w.context c).visible
  tokenCount : s.tokenCount = w.tokenCount
  lookups : s.lookups = w.lookups

variable {x : Executor} {c : Nat} {s : Cell} {w w₁ : World}

theorem Mirrors.of_quiet (h : s.Mirrors c w) (hq : w.Quiet w₁) : s.Mirrors c w₁ :=
  ⟨by rw [hq.context]; exact h.shown, h.tokenCount.trans hq.tokenCount.symm,
   h.lookups.trans hq.lookups.symm⟩

theorem Mirrors.resolve (h : s.Mirrors c w) (a : Assumed) :
    s.resolve x a = (w.resolveCall x a).value := by
  cases a <;> simp [Cell.resolve, World.resolveCall, h.lookups]

theorem Mirrors.store (h : s.Mirrors c w) (i : Identity) {y : Context}
    (hy : y.visible = some ⟨w.tokenCount, i⟩) :
    (s.store i).Mirrors c ((w.mint i).2.setContext c y) := by
  refine ⟨?_, congrArg (· + 1) h.tokenCount, h.lookups⟩
  rw [World.context_setContext, if_pos rfl, hy, ← h.tokenCount]
  rfl

theorem Mirrors.put (h : s.Mirrors c w) (t : Option Token) :
    Mirrors { s with shown := t } c (w.setContext c ((w.context c).put t)) :=
  ⟨by simp, h.tokenCount, h.lookups⟩

theorem look?_eq {l : Look} (y : Context) (hl : l ≠ .depth) :
    look? x y.visible l = some (l.answer x y) := by
  cases l <;> first | rfl | exact absurd rfl hl

/-- An operation answers alike on a cell and on the context that it mirrors. -/
theorem Mirrors.perform (h : s.Mirrors c w) {op : Op} (hop : op.OnCell c) :
    ∃ s', s.perform? x c op = some ((op.perform x w).1, s') ∧ s'.Mirrors c (op.perform x w).2 := by
  cases op with
  | look d l =>
    have hl : l ≠ .depth := by rintro rfl; exact hop
    have hd : d = c := by cases l <;> first | exact hop | exact hop.elim
    subst hd
    refine ⟨s, ?_, h⟩
    simp only [perform?, ↓reduceIte, h.shown, look?_eq _ hl]
    rfl
  | put d t =>
    cases hop
    exact ⟨_, by simp only [perform?, ↓reduceIte]; rfl, h.put t⟩
  | replace d t =>
    cases hop
    exact ⟨_, by simp only [perform?, ↓reduceIte, h.shown]; rfl, h.put t⟩
  | become d p =>
    cases hop
    have hb := Op.performBecome_cases x w c p
    simp only [perform?, ↓reduceIte, become, h.lookups]
    show ∃ s' : Cell, _ = some ((Op.performBecome x w c p).1, s') ∧
      s'.Mirrors c (Op.performBecome x w c p).2
    generalize (x.identify w.lookups none p).value = v at hb ⊢
    cases v with
    | ok i => exact ⟨s.store i, by rw [hb.1, h.shown]; rfl, (h.store i (by simp)).of_quiet hb.2⟩
    | error e => exact ⟨s, by rw [hb.1]; rfl, h.of_quiet hb.2⟩
    | panic text => exact ⟨s, by rw [hb.1]; rfl, h.of_quiet hb.2⟩
  | mint i =>
    refine ⟨{ s with tokenCount := s.tokenCount + 1 }, ?_, h.shown, congrArg (· + 1) h.tokenCount,
      h.lookups⟩
    simp only [perform?, h.tokenCount]; rfl
  | resolve q =>
    refine ⟨s, ?_, h.of_quiet (.record w _)⟩
    simp only [perform?, h.lookups]; rfl
  | arrange edit =>
    refine ⟨_, rfl, h.shown, h.tokenCount, congrArg edit.apply h.lookups⟩
  | registered key =>
    refine ⟨s, ?_, h⟩
    simp only [perform?, h.lookups]; rfl
  | _ => exact hop.elim

/-- Leaving a call uncovers the slot whose content the cell has saved. -/
theorem Mirrors.leave {k : Call} {hold : Hold} {span : Option Span} {s₂ : Cell} {w₂ : World}
    (h : s.Mirrors k.context w) (hw : w.enter x k = (.ok (hold, span), w₁))
    (hre : (w₁.context k.context).Rewritten (w₂.context k.context)) (h₂ : s₂.Mirrors k.context w₂)
    (mode : Mode) (next : Ending → Work) (unwinding : Bool) :
    Mirrors { s₂ with shown := s.shown } k.context
      (w₂.leave mode ⟨hold, span, next⟩ unwinding) := by
  have hq := World.leave_quiet w₂ mode ⟨hold, span, next⟩ unwinding
  refine ⟨?_, h₂.tokenCount.trans hq.tokenCount.symm, h₂.lookups.trans hq.lookups.symm⟩
  rw [World.leave_of_enter hw hre, if_pos rfl]
  exact h.shown

end Cell

/-- A program has the same course on a cell and on the context that it mirrors, and after it the
cell shows what the context shows. -/
theorem Program.eval_onCell (x : Executor) {c : Nat} (p : Program) (hp : p.OnCell c) {s : Cell}
    {w : World} (hc : c < w.contextCount) (h : s.Mirrors c w) :
    ∃ s', p.onCell? x c s = some ((p.eval x w).events, (p.eval x w).ending, s') ∧
      s'.Mirrors c (p.eval x w).world := by
  induction p generalizing s w with
  | done e => exact ⟨s, rfl, h⟩
  | act op next ih =>
    obtain ⟨s₁, h₁, hm₁⟩ := h.perform (x := x) hp.1
    have hc₁ := Nat.lt_of_lt_of_le hc (Op.perform_grows x w op).contextCount
    obtain ⟨s₂, h₂, hm₂⟩ := ih _ (hp.2 _) hc₁ hm₁
    exact ⟨s₂, by simp [onCell?, eval, h₁, h₂], hm₂⟩
  | call k body next ihb ihn =>
    obtain ⟨hk, (hpb : body.OnCell c), hpn⟩ := hp
    have hr := h.resolve (x := x) k.assumed
    rcases hw : w.enter x k with ⟨⟨hold, span⟩ | err | text, w₁⟩
    · obtain ⟨i, hv, -, hq⟩ := World.enter_ok hw
      have hc₁ : c < w₁.contextCount := by rw [hq.contextCount]; exact hc
      subst hk
      have hm₁ : (s.store i).Mirrors k.context w₁ := (h.store i rfl).of_quiet hq
      obtain ⟨s₂, h₂, hm₂⟩ := ihb hpb hc₁ hm₁
      have hm₃ := h.leave hw (body.eval_rewritten x hpb.scoped w₁ hc₁) hm₂ .sync
        (fun e => (next e).work) (body.eval x w₁).ending.isPanic
      have hc₃ := Nat.lt_of_lt_of_le hc₁ (Nat.le_trans (body.eval_grows x w₁).contextCount
        (World.leave_grows (body.eval x w₁).world .sync ⟨hold, span, fun e => (next e).work⟩
          (body.eval x w₁).ending.isPanic).contextCount)
      obtain ⟨s₄, h₄, hm₄⟩ := ihn (body.eval x w₁).ending (hpn _) hc₃ hm₃
      refine ⟨s₄, ?_, by rw [eval_call_ok hw]; exact hm₄⟩
      simp [onCell?, eval, hw, hr.trans hv, h₂, h₄]
    · obtain ⟨hv, hq⟩ := World.enter_error hw
      obtain ⟨s₁, h₁, hm₁⟩ := ihn (.error (.resolution err)) (hpn _) (hq.contextCount ▸ hc)
        (h.of_quiet hq)
      exact ⟨s₁, by simp [onCell?, eval, hw, hk, hr.trans hv, h₁], by simpa [eval, hw] using hm₁⟩
    · obtain ⟨hv, hq⟩ := World.enter_panic hw
      obtain ⟨s₁, h₁, hm₁⟩ := ihn (.panic text) (hpn _) (hq.contextCount ▸ hc) (h.of_quiet hq)
      exact ⟨s₁, by simp [onCell?, eval, hw, hk, hr.trans hv, h₁], by simpa [eval, hw] using hm₁⟩

/-- On one context and one thread the frames are a way to save and put back one cell: every program
comes to its ending, and on a cell that starts with what the context shows it gets to know the same
answers and endings of calls, ends alike and leaves the same token to be seen. -/
theorem Machine.frames_refine_cell (x : Executor) (w : World) (c : Nat) (p : Program)
    (hp : p.OnCell c) (hc : c < w.contextCount) :
    ∃ n es e s, p.onCell? x c ⟨(w.context c).visible, w.tokenCount, w.lookups⟩ = some (es, e, s) ∧
      ((start p.work w).run x n).ending? = some e ∧ (start p.work w).trace x n = es ∧
      (((start p.work w).run x n).world.context c).visible = s.shown := by
  obtain ⟨s, hs, hm⟩ := p.eval_onCell x hp hc (s := ⟨_, _, _⟩) ⟨rfl, rfl, rfl⟩
  obtain ⟨n, hn, ht⟩ := p.reaches x (start p.work w) rfl
  refine ⟨n, _, _, s, hs, ?_, ht, ?_⟩
  · rw [hn]; rfl
  · rw [hn]; exact hm.shown.symm

/-- Work that takes away what its call has installed and looks. -/
def replacesWithin : Program :=
  .call ⟨0, .anonymous⟩ (.act (.replace 0 none) fun _ => .act (.look 0 .principal) fun _ =>
    .done (.ok .null)) .done

theorem Machine.frames_refine_cell_replacesWithin :
    ∃ n es e s, replacesWithin.onCell? (.ofConfig .default) 0 ⟨none, 0, (World.bare .empty).lookups⟩ =
        some (es, e, s) ∧
      ((start replacesWithin.work (.bare .empty)).run (.ofConfig .default) n).ending? = some e ∧
      (start replacesWithin.work (.bare .empty)).trace (.ofConfig .default) n = es ∧
      (((start replacesWithin.work (.bare .empty)).run (.ofConfig .default) n).world.context
        0).visible = s.shown :=
  have hp : replacesWithin.OnCell 0 :=
    ⟨rfl, ⟨rfl, fun _ => ⟨rfl, fun _ => trivial⟩⟩, fun _ => trivial⟩
  frames_refine_cell (.ofConfig .default) (.bare .empty) 0 replacesWithin hp (by decide)

end Guise

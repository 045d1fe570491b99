import Guise.Machine
import Guise.Proofs.Frames

/-!
# What one thing done changes

`World.Quiet w w'`: the two worlds agree on contexts, tokens, collaborators and the running thread,
so they differ at most in the log, in spans and bindings and in what the observer remembers. Each
function of a world is described once, as quiet apart from one explicit update: `install` makes a
token and pushes it, `restore` and `leave` pop one number, an operation does to each context one of
the five things of `Op.Change`.
-/

namespace Guise

/-- The context to whose visible slot an operation writes. -/
def Op.written? : Op → Option Nat
  | .put c _ | .replace c _ | .become c _ => some c
  | _ => none

/-- The context in which an operation pushes or pops a frame by hand. -/
def Op.stacked? : Op → Option Nat
  | .push c _ | .pop c _ => some c
  | _ => none

/-- What a call ends with when no identity was resolved for it: the error as it is, or the panic. -/
def Outcome.failure? {α : Type} : Outcome ResolutionError α → Option Ending
  | .ok _ => none
  | .error e => some (.error (.resolution e))
  | .panic text => some (.panic text)

def Entry.question? : Entry → Option Question
  | .asked q => some q
  | .told .. | .note _ => none

namespace World

/-- The questions to collaborators, in order. -/
def questions (w : World) : List Question :=
  w.journal.filterMap fun
    | .asked q => some q
    | _ => none

theorem questions_eq (w : World) : w.questions = w.journal.filterMap Entry.question? :=
  congrArg (List.filterMap · w.journal) (funext fun e => by cases e <;> rfl)

/-- Agreement on contexts, tokens, collaborators and the running thread. -/
structure Quiet (w w' : World) : Prop where
  context : ∀ c, w'.context c = w.context c
  contextCount : w'.contextCount = w.contextCount
  tokenCount : w'.tokenCount = w.tokenCount
  lookups : w'.lookups = w.lookups
  running : w'.running = w.running

namespace Quiet
variable {w w₁ w₂ : World}

theorem refl (w : World) : Quiet w w := ⟨fun _ => rfl, rfl, rfl, rfl, rfl⟩

theorem trans (h : Quiet w w₁) (h' : Quiet w₁ w₂) : Quiet w w₂ :=
  ⟨fun c => (h'.context c).trans (h.context c), h'.contextCount.trans h.contextCount,
   h'.tokenCount.trans h.tokenCount, h'.lookups.trans h.lookups, h'.running.trans h.running⟩

theorem setContext (h : Quiet w w₁) (c : Nat) (y : Context) :
    Quiet (w.setContext c y) (w₁.setContext c y) :=
  ⟨fun d => by simp only [context_setContext, h.context], h.contextCount, h.tokenCount, h.lookups,
   h.running⟩

theorem mint (h : Quiet w w₁) (i : Identity) : Quiet (w.mint i).2 (w₁.mint i).2 :=
  ⟨h.context, h.contextCount, congrArg (· + 1) h.tokenCount, h.lookups, h.running⟩

theorem write (w : World) (e : Entry) : Quiet w (w.write e) := ⟨fun _ => rfl, rfl, rfl, rfl, rfl⟩

theorem tell (w : World) (n : Notice) : Quiet w (w.tell n) := .write w _

theorem setStrand (w : World) (s : Strand) : Quiet w (w.setStrand s) :=
  ⟨fun _ => rfl, rfl, rfl, rfl, rfl⟩

theorem enterSpan (w : World) (s : Option Span) : Quiet w (w.enterSpan s) := by
  cases s with
  | none => exact .refl w
  | some s => exact .setStrand w _

theorem exitSpan (w : World) (s : Option Span) : Quiet w (w.exitSpan s) := by
  cases s with
  | none => exact .refl w
  | some s => exact .setStrand w _

theorem record (w : World) (signs : List Sign) : Quiet w (w.record signs) := by
  induction signs generalizing w with
  | nil => exact .refl w
  | cons s signs ih =>
    cases s with
    | asked q => exact .trans (.write w (.asked q)) (ih (w.write (.asked q)))
    | told n => exact .trans (.tell w n) (ih (w.tell n))

theorem enterAll (w : World) (calls : List Activation) : Quiet w (w.enterAll calls) := by
  induction calls with
  | nil => exact .refl w
  | cons a calls ih => exact ih.trans (.enterSpan _ _)

theorem exitAll (w : World) (calls : List Activation) : Quiet w (w.exitAll calls) := by
  induction calls generalizing w with
  | nil => exact .refl w
  | cons a calls ih => exact .trans (.exitSpan w a.span) (ih (w.exitSpan a.span))

theorem number (w : World) (t : Token) : Quiet w (w.number t).2 := by
  unfold World.number
  split
  · exact .refl w
  · exact ⟨fun _ => rfl, rfl, rfl, rfl, rfl⟩

theorem numberSlot (w : World) (t : Option Token) : Quiet w (w.numberSlot t).2 := by
  cases t with
  | none => exact .refl w
  | some t => exact .number w t

theorem survey (w : World) (cs : List Nat) : Quiet w (w.survey cs).2 := by
  induction cs generalizing w with
  | nil => exact .refl w
  | cons c cs ih => exact (numberSlot w _).trans (ih _)

theorem note (w : World) (place verb : String) (r : Report) : Quiet w (w.note place verb r) :=
  (survey w w.known).trans ⟨fun _ => rfl, rfl, rfl, rfl, rfl⟩

theorem know (w : World) (c : Nat) : Quiet w (w.know c).2 := by
  unfold World.know
  split
  · exact .refl w
  · exact ⟨fun _ => rfl, rfl, rfl, rfl, rfl⟩

end Quiet

/-- Contexts and tokens are not unmade, and the same thread runs. -/
structure Grows (w w' : World) : Prop where
  contextCount : w.contextCount ≤ w'.contextCount
  tokenCount : w.tokenCount ≤ w'.tokenCount
  running : w'.running = w.running

theorem Quiet.grows {w w' : World} (h : Quiet w w') : Grows w w' :=
  ⟨Nat.le_of_eq h.contextCount.symm, Nat.le_of_eq h.tokenCount.symm, h.running⟩

theorem Grows.trans {w w₁ w₂ : World} (h : Grows w w₁) (h' : Grows w₁ w₂) : Grows w w₂ :=
  ⟨Nat.le_trans h.contextCount h'.contextCount, Nat.le_trans h.tokenCount h'.tokenCount,
   h'.running.trans h.running⟩

theorem Grows.setContext (w : World) (c : Nat) (y : Context) : Grows w (w.setContext c y) :=
  ⟨Nat.le_refl _, Nat.le_refl _, rfl⟩

theorem Grows.mint (w : World) (i : Identity) : Grows w (w.mint i).2 :=
  ⟨Nat.le_refl _, Nat.le_succ _, rfl⟩

theorem Grows.bound (w : World) : Grows w w.bound.2 := by
  unfold World.bound
  split
  · exact (Quiet.refl w).grows
  · exact ⟨Nat.le_succ _, Nat.le_refl _, rfl⟩

/-! ### Calls -/

theorem resolveCall_congr {x : Executor} {w w' : World} (h : w'.lookups = w.lookups) (a : Assumed) :
    w'.resolveCall x a = w.resolveCall x a := by
  cases a <;> simp only [resolveCall, h]

/-- The world with a new token of an identity on top of a context. -/
def pushed (w : World) (c : Nat) (i : Identity) : World :=
  (w.mint i).2.setContext c ((w.context c).push (some ⟨w.tokenCount, i⟩)).2

theorem context_pushed (w : World) (c : Nat) (i : Identity) (d : Nat) :
    (w.pushed c i).context d =
      if c = d then ((w.context d).push (some ⟨w.tokenCount, i⟩)).2 else w.context d := by
  rw [pushed, context_setContext]
  by_cases hd : c = d
  · rw [if_pos hd, if_pos hd, hd]
  · rw [if_neg hd, if_neg hd]; rfl

/-- Installing makes a token and pushes it; the frame has the next number of its context. -/
theorem install_quiet (w : World) (c : Nat) (i : Identity) :
    (w.install c i).1.1 = ⟨c, (w.context c).next⟩ ∧ Quiet (w.pushed c i) (w.install c i).2 := by
  have hspan : Quiet (w.mint i).2 ((w.mint i).2.enterSpan ((w.mint i).2.newSpan i)) := .enterSpan _ _
  have hctx : ((w.mint i).2.enterSpan ((w.mint i).2.newSpan i)).context c = w.context c :=
    hspan.context c
  refine ⟨congrArg (fun y : Context => (⟨c, y.next⟩ : Hold)) hctx, .trans ?_ (.tell _ _)⟩
  show Quiet (w.pushed c i) (World.setContext _ c
    ((((w.mint i).2.enterSpan ((w.mint i).2.newSpan i)).context c).push (some ⟨w.tokenCount, i⟩)).2)
  rw [hctx]
  exact hspan.setContext c _

/-- How a call begins, for each way in which its resolution ends. -/
theorem enter_cases (x : Executor) (w : World) (c : Call) :
    match (w.resolveCall x c.assumed).value with
    | .ok i => ∃ span, (w.enter x c).1 = .ok (⟨c.context, (w.context c.context).next⟩, span) ∧
        Quiet (w.pushed c.context i) (w.enter x c).2
    | .error e => (w.enter x c).1 = .error e ∧ Quiet w (w.enter x c).2
    | .panic text => (w.enter x c).1 = .panic text ∧ Quiet w (w.enter x c).2 := by
  have hr := Quiet.record w (w.resolveCall x c.assumed).signs
  unfold World.enter
  split <;> rename_i hv <;> simp only [hv]
  · rename_i i
    obtain ⟨hh, hq⟩ := install_quiet (w.record (w.resolveCall x c.assumed).signs) c.context i
    refine ⟨_, by rw [← hr.context c.context, ← hh], .trans ?_ hq⟩
    unfold World.pushed
    rw [hr.context, hr.tokenCount]
    exact (hr.mint i).setContext _ _
  · exact ⟨trivial, hr.trans (.tell _ _)⟩
  · exact ⟨trivial, hr⟩

theorem enter_ok {x : Executor} {w w₁ : World} {c : Call} {hold : Hold} {span : Option Span}
    (h : w.enter x c = (.ok (hold, span), w₁)) :
    ∃ i, (w.resolveCall x c.assumed).value = .ok i ∧
      hold = ⟨c.context, (w.context c.context).next⟩ ∧ Quiet (w.pushed c.context i) w₁ := by
  have hc := enter_cases x w c
  rw [h] at hc
  split at hc
  · rename_i i hv
    obtain ⟨_, he, hq⟩ := hc
    cases he
    exact ⟨i, hv, rfl, hq⟩
  · cases hc.1
  · cases hc.1

theorem enter_error {x : Executor} {w w₁ : World} {c : Call} {e : ResolutionError}
    (h : w.enter x c = (.error e, w₁)) :
    (w.resolveCall x c.assumed).value = .error e ∧ Quiet w w₁ := by
  have hc := enter_cases x w c
  rw [h] at hc
  split at hc
  · obtain ⟨_, he, -⟩ := hc; cases he
  · cases hc.1; exact ⟨‹_›, hc.2⟩
  · cases hc.1

theorem enter_panic {x : Executor} {w w₁ : World} {c : Call} {text : String}
    (h : w.enter x c = (.panic text, w₁)) :
    (w.resolveCall x c.assumed).value = .panic text ∧ Quiet w w₁ := by
  have hc := enter_cases x w c
  rw [h] at hc
  split at hc
  · obtain ⟨_, he, -⟩ := hc; cases he
  · cases hc.1
  · cases hc.1; exact ⟨‹_›, hc.2⟩

theorem enter_failed {x : Executor} {w w₁ : World} {c : Call} {e : Ending}
    {o : Outcome ResolutionError (Hold × Option Span)} (h : w.enter x c = (o, w₁))
    (he : o.failure? = some e) :
    (w.resolveCall x c.assumed).value.failure? = some e ∧ Quiet w w₁ := by
  cases o with
  | ok => cases he
  | error err =>
    obtain ⟨hv, hq⟩ := enter_error h
    exact ⟨hv ▸ he, hq⟩
  | panic text =>
    obtain ⟨hv, hq⟩ := enter_panic h
    exact ⟨hv ▸ he, hq⟩

/-- A call begins, or goes on with a failure. -/
theorem enter_ok_or_failed (x : Executor) (w : World) (c : Call) :
    (∃ hold span w₁, w.enter x c = (.ok (hold, span), w₁)) ∨
      ∃ o e w₁, w.enter x c = (o, w₁) ∧ o.failure? = some e := by
  rcases h : w.enter x c with ⟨⟨hold, span⟩ | err | text, w₁⟩
  · exact .inl ⟨hold, span, w₁, rfl⟩
  · exact .inr ⟨_, .error (.resolution err), w₁, rfl, rfl⟩
  · exact .inr ⟨_, .panic text, w₁, rfl, rfl⟩

theorem enter_grows (x : Executor) (w : World) (c : Call) : w.Grows (w.enter x c).2 := by
  have hc := enter_cases x w c
  split at hc
  · obtain ⟨_, -, hq⟩ := hc
    exact ((Grows.mint w _).trans (.setContext _ _ _)).trans hq.grows
  · exact hc.2.grows
  · exact hc.2.grows

/-- The world without a frame of a context. -/
def popped (w : World) (h : Hold) : World :=
  w.setContext h.context ((w.context h.context).pop h.frame).2

theorem context_popped (w : World) (h : Hold) (d : Nat) : (w.popped h).context d =
    if h.context = d then ((w.context d).pop h.frame).2 else w.context d := by
  rw [popped, context_setContext]
  by_cases hd : h.context = d
  · rw [if_pos hd, if_pos hd, hd]
  · rw [if_neg hd, if_neg hd]

theorem Quiet.popped {w w' : World} (hq : Quiet w w') (h : Hold) :
    Quiet (w.popped h) (w'.popped h) := by
  unfold World.popped
  rw [hq.context]
  exact hq.setContext _ _

theorem restore_quiet (w : World) (h : Hold) (unwinding : Bool) :
    Quiet (w.popped h) (w.restore h unwinding) := by
  have htold : Quiet w (if unwinding then w.tell .unwinding else w) := by
    split
    · exact .tell w _
    · exact .refl w
  unfold World.restore
  generalize (if unwinding then w.tell .unwinding else w) = w₁ at htold ⊢
  refine (htold.popped h).trans ?_
  unfold World.popped
  dsimp only
  rcases hp : (w₁.context h.context).pop h.frame with ⟨_ | _, y⟩
  · -- nothing was there to pop, so the context stays
    have hy : y = w₁.context h.context := by
      unfold Context.pop at hp
      split at hp <;> cases hp
      rfl
    have hsame : Quiet (w₁.setContext h.context y) w₁ := by
      refine ⟨fun c => ?_, rfl, rfl, rfl, rfl⟩
      rw [context_setContext, hy]
      split
      · rename_i hc; rw [hc]
      · rfl
    exact hsame.trans (.tell w₁ (.frameGone h.frame))
  · exact .tell _ _

theorem leave_quiet (w : World) (mode : Mode) (a : Activation) (unwinding : Bool) :
    Quiet (w.popped a.hold) (w.leave mode a unwinding) := by
  cases mode with
  | sync => exact (restore_quiet w a.hold unwinding).trans (.exitSpan _ _)
  | async => exact ((Quiet.exitSpan w a.span).popped a.hold).trans (restore_quiet _ a.hold unwinding)

theorem leave_grows (w : World) (mode : Mode) (a : Activation) (unwinding : Bool) :
    w.Grows (w.leave mode a unwinding) :=
  (Grows.setContext w _ _).trans (leave_quiet w mode a unwinding).grows

/-- A call left after a change that kept its frame on top has changed its context not at all, and
every other context as its body has. -/
theorem leave_of_enter {x : Executor} {w w₁ w₂ : World} {c : Call} {hold : Hold}
    {span : Option Span} (h : w.enter x c = (.ok (hold, span), w₁))
    (hw : (w₁.context c.context).Rewritten (w₂.context c.context)) (mode : Mode)
    (next : Ending → Work) (unwinding : Bool) (d : Nat) :
    (w₂.leave mode ⟨hold, span, next⟩ unwinding).context d =
      if c.context = d then { w.context d with next := (w₂.context d).next } else w₂.context d := by
  obtain ⟨i, -, rfl, hq⟩ := enter_ok h
  rw [(leave_quiet w₂ mode _ unwinding).context, context_popped]
  by_cases hd : c.context = d
  · subst hd
    have hpush : w₁.context c.context =
        ((w.context c.context).push (some ⟨w.tokenCount, i⟩)).2 := by
      rw [hq.context, context_pushed, if_pos rfl]
    rw [hpush] at hw
    rw [if_pos rfl, if_pos rfl]
    exact congrArg Prod.snd hw.pop_push
  · rw [if_neg hd, if_neg hd]

end World

/-! ### Operations -/

/-- What an operation can make of a context: it stays, or its visible slot is written, or a frame is
pushed or popped by hand, or it is new. -/
inductive Op.Change (op : Op) (w : World) (c : Nat) (y : Context) : Prop
  | stays : y = w.context c → op.Change w c y
  | written (t : Option Token) : op.written? = some c → y = (w.context c).put t → op.Change w c y
  | pushed (t : Option Token) :
      op.stacked? = some c → y = ((w.context c).push t).2 → op.Change w c y
  | popped (n : Nat) : op.stacked? = some c → y = ((w.context c).pop n).2 → op.Change w c y
  | made (t : Option Token) : w.contextCount = c → y = .ofToken t → op.Change w c y

namespace Op
variable {w w' : World} {c : Nat} {op : Op}

theorem Change.of_quiet (h : w.Quiet w') : op.Change w c (w'.context c) := .stays (h.context c)

theorem Change.setContext {d : Nat} {y : Context} (h : op.Change w d y) :
    op.Change w c ((w.setContext d y).context c) := by
  rw [World.context_setContext]
  split
  · rename_i hd; exact hd ▸ h
  · exact .stays rfl

theorem Change.addContext (t : Option Token) (w : World) (c : Nat) :
    op.Change w c ((w.addContext t).2.context c) :=
  Change.setContext (d := w.contextCount) (.made t rfl rfl)

theorem Change.bound (w : World) (c : Nat) : op.Change w c (w.bound.2.context c) := by
  unfold World.bound
  split
  · exact .stays rfl
  · exact .addContext none w c

/-- How becoming somebody ends, for each way in which the resolution ends. -/
theorem performBecome_cases (x : Executor) (w : World) (c : Nat) (p : String) :
    match (x.identify w.lookups none p).value with
    | .ok i => (performBecome x w c p).1 = .ok (w.context c).visible ∧
        World.Quiet ((w.mint i).2.setContext c ((w.context c).put (some ⟨w.tokenCount, i⟩)))
          (performBecome x w c p).2
    | .error e => (performBecome x w c p).1 = .error e ∧ w.Quiet (performBecome x w c p).2
    | .panic text => (performBecome x w c p).1 = .panic text ∧ w.Quiet (performBecome x w c p).2 := by
  have hr := World.Quiet.record w (x.identify w.lookups none p).signs
  unfold performBecome
  split <;> rename_i hv <;> simp only [hv]
  · rename_i i
    refine ⟨congrArg (fun y : Context => Outcome.ok y.visible) (hr.context c), .trans ?_ (.tell _ _)⟩
    have hmint := hr.mint i
    show World.Quiet _ (World.setContext _ c
      (((w.record (x.identify w.lookups none p).signs).context c).put (some ⟨(w.record _).tokenCount, i⟩)))
    rw [hr.context, hr.tokenCount]
    exact hmint.setContext _ _
  · exact ⟨trivial, hr.trans (.tell _ _)⟩
  · exact ⟨trivial, hr⟩

/-- Every operation does one of the five things to every context. -/
theorem perform_change (x : Executor) (w : World) (op : Op) (c : Nat) :
    op.Change w c ((op.perform x w).2.context c) := by
  cases op with
  | put d t => exact .setContext (.written t rfl rfl)
  | replace d t => exact .setContext (.written t rfl rfl)
  | push d t => exact .setContext (.pushed t rfl rfl)
  | pop d n => exact .setContext (.popped n rfl rfl)
  | become d p =>
    have h := performBecome_cases x w d p
    show (Op.become d p).Change w c ((performBecome x w d p).2.context c)
    split at h
    · rw [h.2.context]; exact .setContext (.written _ rfl rfl)
    · exact .of_quiet h.2
    · exact .of_quiet h.2
  | newContext t => exact .addContext t w c
  | bound => exact .bound w c
  | resolve q => exact .of_quiet (.record w _)
  | number t => exact .of_quiet (.numberSlot w t)
  | know d => exact .of_quiet (.know w d)
  | note place verb r => exact .of_quiet (.note w place verb r)
  | look | mint | bind | unbind | isBound | arrange | registered | met | known | label | labelled
  | mark | marks => exact .stays rfl

theorem perform_grows (x : Executor) (w : World) (op : Op) : w.Grows (op.perform x w).2 := by
  cases op with
  | become d p =>
    have h := performBecome_cases x w d p
    show w.Grows (performBecome x w d p).2
    split at h
    · exact ((World.Grows.mint w _).trans (.setContext _ _ _)).trans h.2.grows
    · exact h.2.grows
    · exact h.2.grows
  | newContext t => exact ⟨Nat.le_succ _, Nat.le_refl _, rfl⟩
  | bound => exact .bound w
  | resolve q => exact (World.Quiet.record w _).grows
  | number t => exact (World.Quiet.numberSlot w t).grows
  | know d => exact (World.Quiet.know w d).grows
  | note place verb r => exact (World.Quiet.note w place verb r).grows
  | mint i => exact .mint w i
  | look | put | replace | push | pop | bind | unbind | isBound | arrange | registered | met | known
  | label | labelled | mark | marks => exact ⟨Nat.le_refl _, Nat.le_refl _, rfl⟩

end Op
end Guise

import Guise.Proofs.Changes

/-!
# Worlds that differ in spans only

A call leaves its span after its frame is taken back when it is synchronous, and before when it is
not; a call that is suspended has left its span for the time being. None of this is to be seen but in
the log, where a notice stands among other spans. `World.Alike` relates two worlds that differ in
nothing else: in the spans that threads have entered, and in those around the notices of the journal.
Whatever is done to both worlds answers alike on both and keeps them alike (`Alike.perform`,
`Alike.enter`, `Alike.leave`), and so does whatever is done to the spans of one of them.
-/

namespace Guise

/-- An entry of the journal without the spans around a notice. -/
def Entry.spanless : Entry → Entry
  | .told n _ _ => .told n [] []
  | .asked q => .asked q
  | .note n => .note n

namespace World

/-- Agreement on everything but spans. -/
structure Alike (w w' : World) : Prop where
  same : w' = { w with threads := w'.threads, journal := w'.journal }
  bound : ∀ t, (w'.thread t).bound = (w.thread t).bound
  journal : w'.journal.map Entry.spanless = w.journal.map Entry.spanless

namespace Alike
variable {w w' w'' : World}

theorem refl (w : World) : Alike w w := ⟨rfl, fun _ => rfl, rfl⟩

theorem symm (h : Alike w w') : Alike w' w := by
  refine ⟨?_, fun t => (h.bound t).symm, h.journal.symm⟩
  rw [h.same]

theorem trans (h : Alike w w') (h' : Alike w' w'') : Alike w w'' := by
  refine ⟨?_, fun t => (h'.bound t).trans (h.bound t), h'.journal.trans h.journal⟩
  rw [h'.same, h.same]

theorem context (h : Alike w w') (c : Nat) : w'.context c = w.context c := by
  rw [h.same]
  rfl

theorem lookups (h : Alike w w') : w'.lookups = w.lookups := by
  rw [h.same]

theorem strand_bound (h : Alike w w') : w'.strand.bound = w.strand.bound := by
  have hrunning : w'.running = w.running := by rw [h.same]
  unfold strand
  rw [hrunning]
  exact h.bound w.running

theorem questions (h : Alike w w') : w'.questions = w.questions := by
  have hspanless : ∀ w : World,
      w.questions = (w.journal.map Entry.spanless).filterMap Entry.question? := by
    intro w
    rw [questions_eq, List.filterMap_map]
    exact congrArg (List.filterMap · w.journal) (funext fun e => by cases e <;> rfl)
  rw [hspanless, hspanless w, h.journal]

/-- What reads and changes neither threads nor the journal answers alike and keeps worlds alike. -/
theorem lift {α : Type} (h : Alike w w') (f : World → α × World)
    (hf : ∀ (w : World) T J, f { w with threads := T, journal := J } =
      ((f w).1, { (f w).2 with threads := T, journal := J })) :
    (f w').1 = (f w).1 ∧ Alike (f w).2 (f w').2 := by
  have hw := hf w w.threads w.journal
  have hw' := hf w w'.threads w'.journal
  rw [← h.same] at hw'
  have hthreads : (f w).2.threads = w.threads := congrArg (·.2.threads) hw
  have hjournal : (f w).2.journal = w.journal := congrArg (·.2.journal) hw
  rw [hw']
  refine ⟨rfl, rfl, fun t => ?_, ?_⟩
  · refine (h.bound t).trans ?_
    unfold thread
    rw [hthreads]
  · rw [hjournal]
    exact h.journal

/-! ### The log -/

theorem tell (h : Alike w w') (n : Notice) : Alike (w.tell n) (w'.tell n) := by
  refine ⟨?_, h.bound, ?_⟩
  · rw [h.same]
    rfl
  · simp [World.tell, write, Entry.spanless, h.journal]

theorem write (h : Alike w w') (e : Entry) : Alike (w.write e) (w'.write e) := by
  refine ⟨?_, h.bound, ?_⟩
  · rw [h.same]
    rfl
  · simp [World.write, h.journal]

theorem record (h : Alike w w') (signs : List Sign) : Alike (w.record signs) (w'.record signs) := by
  induction signs generalizing w w' with
  | nil => exact h
  | cons s signs ih =>
    cases s with
    | asked q => exact ih (h.write (.asked q))
    | told n => exact ih (h.tell n)

theorem setStrand (h : Alike w w') {s s' : Strand} (hs : s'.bound = s.bound) :
    Alike (w.setStrand s) (w'.setStrand s') := by
  have hrunning : w'.running = w.running := by rw [h.same]
  refine ⟨?_, fun t => ?_, h.journal⟩
  · rw [h.same]
    rfl
  · simp only [World.setStrand, thread_setThread, hrunning]
    split
    · exact hs
    · exact h.bound t

/-- The spans that the running thread has entered are of no account. -/
theorem entered (w : World) (spans : List Span) :
    Alike w (w.setStrand { w.strand with entered := spans }) := by
  refine ⟨rfl, fun t => ?_, rfl⟩
  simp only [World.setStrand, thread_setThread]
  split
  · rename_i ht
    rw [← ht]
    rfl
  · rfl

theorem enterSpan (w : World) (s : Option Span) : Alike w (w.enterSpan s) := by
  cases s with
  | none => exact .refl w
  | some s => exact .entered w _

theorem exitSpan (w : World) (s : Option Span) : Alike w (w.exitSpan s) := by
  cases s with
  | none => exact .refl w
  | some s => exact .entered w _

theorem enterAll (w : World) (calls : List Activation) : Alike w (w.enterAll calls) := by
  induction calls with
  | nil => exact .refl w
  | cons a calls ih => exact ih.trans (.enterSpan _ a.span)

theorem exitAll (w : World) (calls : List Activation) : Alike w (w.exitAll calls) := by
  induction calls generalizing w with
  | nil => exact .refl w
  | cons a calls ih => exact .trans (.exitSpan w a.span) (ih (w.exitSpan a.span))

/-! ### Calls -/

theorem mint (h : Alike w w') (i : Identity) :
    (w'.mint i).1 = (w.mint i).1 ∧ Alike (w.mint i).2 (w'.mint i).2 :=
  h.lift (·.mint i) fun _ _ _ => rfl

theorem setContext (h : Alike w w') (c : Nat) (y : Context) :
    Alike (w.setContext c y) (w'.setContext c y) :=
  (h.lift (fun w => ((), w.setContext c y)) fun _ _ _ => rfl).2

/-- Both give the new frame the same number; the spans may differ. -/
theorem install (h : Alike w w') (c : Nat) (i : Identity) :
    (w'.install c i).1.1 = (w.install c i).1.1 ∧ Alike (w.install c i).2 (w'.install c i).2 := by
  obtain ⟨ht, hm⟩ := h.mint i
  have hs : Alike ((w.mint i).2.enterSpan ((w.mint i).2.newSpan i))
      ((w'.mint i).2.enterSpan ((w'.mint i).2.newSpan i)) :=
    (Alike.enterSpan _ _).symm.trans (hm.trans (.enterSpan _ _))
  unfold World.install
  dsimp only
  rw [ht, hs.context]
  exact ⟨rfl, (hs.setContext _ _).tell _⟩

/-- A call begins alike in both worlds: with the same frame, or the same failure. -/
theorem enter (h : Alike w w') (x : Executor) (c : Call) :
    (∃ hold span span' w₁ w₁', w.enter x c = (.ok (hold, span), w₁) ∧
      w'.enter x c = (.ok (hold, span'), w₁') ∧ Alike w₁ w₁') ∨
    ∃ o e w₁ w₁', w.enter x c = (o, w₁) ∧ w'.enter x c = (o, w₁') ∧ o.failure? = some e ∧
      Alike w₁ w₁' := by
  have hr := h.record (w.resolveCall x c.assumed).signs
  unfold World.enter
  rw [resolveCall_congr h.lookups]
  dsimp only
  generalize w.record (w.resolveCall x c.assumed).signs = w₀ at hr ⊢
  generalize w'.record (w.resolveCall x c.assumed).signs = w₀' at hr ⊢
  rcases (w.resolveCall x c.assumed).value with i | e | text
  · obtain ⟨hhold, hi⟩ := hr.install c.context i
    dsimp only
    rcases hw : w₀.install c.context i with ⟨⟨hold, span⟩, w₁⟩
    rcases hw' : w₀'.install c.context i with ⟨⟨hold', span'⟩, w₁'⟩
    rw [hw, hw'] at hhold hi
    cases hhold
    exact .inl ⟨hold, span, span', w₁, w₁', rfl, rfl, hi⟩
  · exact .inr ⟨.error e, _, _, _, rfl, rfl, rfl, hr.tell _⟩
  · exact .inr ⟨.panic text, _, _, _, rfl, rfl, rfl, hr⟩

theorem restore (h : Alike w w') (hold : Hold) (unwinding : Bool) :
    Alike (w.restore hold unwinding) (w'.restore hold unwinding) := by
  have htold : Alike (if unwinding then w.tell .unwinding else w)
      (if unwinding then w'.tell .unwinding else w') := by
    split
    · exact h.tell _
    · exact h
  unfold World.restore
  generalize (if unwinding then w.tell .unwinding else w) = w₁ at htold ⊢
  generalize (if unwinding then w'.tell .unwinding else w') = w₁' at htold ⊢
  dsimp only
  rw [htold.context]
  split
  · exact (htold.setContext _ _).tell _
  · exact htold.tell _

/-- Calls that hold the same frame are left alike, whenever each leaves its span. -/
theorem leave (h : Alike w w') (hold : Hold) (span span' : Option Span)
    (next next' : Ending → Work) (unwinding : Bool) :
    Alike (w.leave .sync ⟨hold, span, next⟩ unwinding)
      (w'.leave .async ⟨hold, span', next'⟩ unwinding) := by
  have hexit : Alike w (w'.exitSpan span') := h.trans (.exitSpan w' span')
  exact (Alike.exitSpan _ span).symm.trans (hexit.restore hold unwinding)

/-! ### Operations -/

theorem bindContext (h : Alike w w') : w'.bound.1 = w.bound.1 ∧ Alike w.bound.2 w'.bound.2 := by
  have hb := h.strand_bound
  unfold World.bound
  cases hw : w.strand.bound with
  | some c =>
    rw [hw] at hb
    simp only [hb]
    exact ⟨trivial, h⟩
  | none =>
    rw [hw] at hb
    obtain ⟨hc, ha⟩ : (w'.addContext none).1 = (w.addContext none).1 ∧
        Alike (w.addContext none).2 (w'.addContext none).2 :=
      h.lift (·.addContext none) fun _ _ _ => rfl
    simp only [hb]
    refine ⟨hc, ha.setStrand ?_⟩
    rw [hc]

theorem become (h : Alike w w') (x : Executor) (c : Nat) (principal : String) :
    (Op.performBecome x w' c principal).1 = (Op.performBecome x w c principal).1 ∧
      Alike (Op.performBecome x w c principal).2 (Op.performBecome x w' c principal).2 := by
  have hr := h.record (x.identify w.lookups none principal).signs
  unfold Op.performBecome
  rw [h.lookups]
  dsimp only
  rcases hv : (x.identify w.lookups none principal).value with i | e | text
  · obtain ⟨ht, hm⟩ := hr.mint i
    dsimp only
    rw [ht, hm.context]
    exact ⟨rfl, (hm.setContext _ _).tell _⟩
  · exact ⟨rfl, hr.tell _⟩
  · exact ⟨rfl, hr⟩

theorem number (h : Alike w w') (t : Token) :
    (w'.number t).1 = (w.number t).1 ∧ Alike (w.number t).2 (w'.number t).2 :=
  h.lift (·.number t) fun w T J => by
    unfold World.number
    cases w.met.findIdx? (·.serial == t.serial) <;> rfl

theorem numberSlot (h : Alike w w') (t : Option Token) :
    (w'.numberSlot t).1 = (w.numberSlot t).1 ∧ Alike (w.numberSlot t).2 (w'.numberSlot t).2 := by
  cases t with
  | none => exact ⟨rfl, h⟩
  | some t =>
    obtain ⟨hn, ha⟩ := h.number t
    exact ⟨congrArg some hn, ha⟩

theorem survey (h : Alike w w') (cs : List Nat) :
    (w'.survey cs).1 = (w.survey cs).1 ∧ Alike (w.survey cs).2 (w'.survey cs).2 := by
  induction cs generalizing w w' with
  | nil => exact ⟨rfl, h⟩
  | cons c cs ih =>
    obtain ⟨hn, ha⟩ := h.numberSlot (w.context c).visible
    obtain ⟨hl, hs⟩ := ih ha
    unfold World.survey
    dsimp only
    rw [h.context, hn, hl, hs.context]
    exact ⟨rfl, hs⟩

theorem know (h : Alike w w') (c : Nat) :
    (w'.know c).1 = (w.know c).1 ∧ Alike (w.know c).2 (w'.know c).2 :=
  h.lift (·.know c) fun w T J => by
    unfold World.know
    cases w.known.findIdx? (· == c) <;> rfl

theorem note (h : Alike w w') (place verb : String) (r : Report) :
    Alike (w.note place verb r) (w'.note place verb r) := by
  have hknown : w'.known = w.known := by rw [h.same]
  obtain ⟨hs, ha⟩ := h.survey w.known
  unfold World.note
  dsimp only
  rw [hknown, hs]
  exact ha.write _

/-- Every operation answers alike in both worlds. -/
theorem perform (h : Alike w w') (x : Executor) (op : Op) :
    (op.perform x w').1 = (op.perform x w).1 ∧ Alike (op.perform x w).2 (op.perform x w').2 := by
  cases op with
  | become c principal => exact h.become x c principal
  | bound => exact h.bindContext
  | bind c => exact ⟨rfl, h.setStrand rfl⟩
  | unbind => exact ⟨rfl, h.setStrand rfl⟩
  | isBound => exact ⟨congrArg Option.isSome h.strand_bound, h⟩
  | resolve q =>
    show (q.answer x w'.lookups).value = _ ∧ Alike _ (w'.record (q.answer x w'.lookups).signs)
    rw [h.lookups]
    exact ⟨rfl, h.record _⟩
  | number t => exact h.numberSlot t
  | know c => exact h.know c
  | note place verb r => exact ⟨rfl, h.note place verb r⟩
  | look | put | replace | push | pop | mint | newContext | arrange | registered | met | known | label
  | labelled | mark | marks => exact h.lift (Op.perform x · _) fun _ _ _ => rfl

end Alike
end World
end Guise

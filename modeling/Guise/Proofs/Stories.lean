import Guise.Proofs.Restoring
import Guise.Proofs.Telling

/-!
# What a program tells

The story of a program is its course as far as the log hears of it: a tree with one node for each call
that began, the children being what was told inside the call and what was told after it.
`Program.story` follows `Program.eval`; `Story.lines` writes a story down, each call inside a scene of
its own. `Program.eval_lines`: this is what the log gets. A program leaves every span that it enters
(`Program.eval_strung`), so what comes after a call is told where the call was made.
-/

namespace Guise

/-- A call that began: whom it was made as, how deep its context was before and what that showed, whether
it was left by a panic, and what the log heard when its frame was taken back. -/
structure Visit where
  caller : Caller
  depth : Nat
  shown : Option String
  unwinds : Bool
  closing : Notice

/-- What the log hears when the call is left. -/
def Visit.closings (v : Visit) : List Notice :=
  (if v.unwinds then [.unwinding] else []) ++ [v.closing]

inductive Story where
  | done
  /-- Told by an operation, or while an identity was resolved. -/
  | told (ns : List Notice) (rest : Story)
  /-- A call that did not begin because its resolution failed. -/
  | refused (cause : ResolutionError) (rest : Story)
  | call (v : Visit) (inside rest : Story)

/-- The lines of a story that begins in a scene, if the log takes spans or not. -/
def Story.lines (on : Bool) : Story → Scene → List Line
  | done, _ => []
  | told ns rest, s => ns.map s.line ++ rest.lines on s
  | refused cause rest, s => s.line (.resolutionFailed cause) :: rest.lines on s
  | call v inside rest, s =>
    let s' := if on then s.push v.caller else s
    s'.line (.installed (v.depth + 1)) :: inside.lines on s' ++ v.closings.map s'.line ++
      rest.lines on s

/-! ### Who tells of calls -/

namespace Notice

/-- How calls begin and end. -/
def audits : Notice → Bool
  | installed _ | restored .. | unwinding | frameGone _ | resolutionFailed _ => true
  | _ => false

def fails : Notice → Bool
  | resolutionFailed _ => true
  | _ => false

def closes : Notice → Bool
  | restored .. | frameGone _ => true
  | _ => false

theorem fails_of_unaudited {n : Notice} (h : n.audits = false) : n.audits = n.fails := by
  cases n <;> first | rfl | cases h

end Notice

/-- Nobody but the calls of a story tells how calls begin and end, except for failures. -/
def Story.Sound : Story → Prop
  | done => True
  | told ns rest => (∀ n ∈ ns, n.audits = n.fails) ∧ rest.Sound
  | refused _ rest => rest.Sound
  | call v inside rest => v.closing.closes = true ∧ inside.Sound ∧ rest.Sound

namespace Executor
variable (x : Executor) (l : Lookups)

theorem resolve_unaudited (tenant : Option Tenant) (p : String) :
    ∀ n ∈ (x.resolve l tenant p).notices, n.audits = false := by
  unfold resolve Traced.notices
  dsimp only
  split
  · split <;> simp [Sign.notice?, Notice.audits]
  all_goals simp [Sign.notice?, Notice.audits]

theorem identify_unaudited (tenant : Option Tenant) (p : String) :
    ∀ n ∈ (x.identify l tenant p).notices, n.audits = false := by
  unfold identify
  split
  · exact fun n hn => absurd hn List.not_mem_nil
  · exact x.resolve_unaudited l tenant p

theorem systemPrincipal_unaudited : ∀ n ∈ (x.systemPrincipal l).notices, n.audits = false := by
  unfold systemPrincipal Traced.notices
  dsimp only
  split <;> simp [Sign.notice?, Notice.audits]

theorem system_unaudited : ∀ n ∈ (x.system l).notices, n.audits = false := by
  have hprincipal := x.systemPrincipal_unaudited l
  unfold system
  dsimp only
  split
  · rename_i p hp
    intro n hn
    simp only [Traced.notices, List.filterMap_append] at hn
    rcases List.mem_append.1 hn with hn | hn
    · exact hprincipal n hn
    · exact x.resolve_unaudited l none p n hn
  · exact hprincipal
  · exact hprincipal

end Executor

theorem World.resolveCall_unaudited (x : Executor) (w : World) (a : Assumed) :
    ∀ n ∈ (w.resolveCall x a).notices, n.audits = false := by
  cases a with
  | system => exact x.system_unaudited w.lookups
  | user p => exact x.identify_unaudited w.lookups none p
  | anonymous | identity i => exact fun n hn => absurd hn List.not_mem_nil

theorem Query.answer_unaudited (x : Executor) (l : Lookups) (q : Query) :
    ∀ n ∈ (q.answer x l).notices, n.audits = false := by
  cases q with
  | identity tenant p => exact x.identify_unaudited l tenant p
  | authorities tenant p => exact x.resolve_unaudited l tenant p
  | systemPrincipal => exact x.systemPrincipal_unaudited l
  | systemIdentity => exact x.system_unaudited l

/-- Of the notices that say how calls begin and end an operation tells at most that of a failure. -/
theorem Op.notices_audited (x : Executor) (w : World) (op : Op) :
    ∀ n ∈ op.notices x w, n.audits = n.fails := by
  cases op with
  | become c p =>
    intro n hn
    rcases List.mem_append.1 hn with hn | hn
    · exact Notice.fails_of_unaudited (x.identify_unaudited w.lookups none p n hn)
    · split at hn
      · rw [List.mem_singleton.1 hn]; rfl
      · rw [List.mem_singleton.1 hn]; rfl
      · cases hn
  | resolve q => exact fun n hn => Notice.fails_of_unaudited (q.answer_unaudited x w.lookups n hn)
  | _ => exact fun n hn => absurd hn List.not_mem_nil

/-! ### Calls -/

namespace World
variable {x : Executor} {w w' : World} {c : Call} {i : Identity}

theorem newSpan_congr (hs : w'.strand = w.strand) (ho : w'.spansOn = w.spansOn) (i : Identity) :
    w'.newSpan i = w.newSpan i := by
  unfold newSpan currentSpan
  rw [hs, ho]

/-- The call as it will be in progress, if its identity is resolved. -/
def activation (w : World) (c : Call) (i : Identity) (next : Ending → Work) : Activation :=
  ⟨⟨c.context, (w.context c.context).next⟩, w.newSpan i, next⟩

theorem enter_of_ok (next : Ending → Work) (hv : (w.resolveCall x c.assumed).value = .ok i) :
    w.enter x c = (.ok ((w.activation c i next).hold, (w.activation c i next).span),
      (w.enter x c).2) := by
  have hs := Strung.record w (w.resolveCall x c.assumed).signs
  have hq := Quiet.record w (w.resolveCall x c.assumed).signs
  have hhold := (install_quiet (w.record (w.resolveCall x c.assumed).signs) c.context i).1
  have hspan : (install (w.record (w.resolveCall x c.assumed).signs) c.context i).1.2 = w.newSpan i :=
    newSpan_congr hs.strand hs.spansOn i
  refine Prod.ext ?_ rfl
  rw [hq.context] at hhold
  unfold enter
  simp only [hv]
  exact congrArg Outcome.ok (Prod.ext hhold hspan)

theorem enter_of_error {e : ResolutionError} (hv : (w.resolveCall x c.assumed).value = .error e) :
    w.enter x c = (.error e, (w.enter x c).2) := by
  have hc := enter_cases x w c
  rw [hv] at hc
  exact Prod.ext hc.1 rfl

theorem enter_of_panic {text : String} (hv : (w.resolveCall x c.assumed).value = .panic text) :
    w.enter x c = (.panic text, (w.enter x c).2) := by
  have hc := enter_cases x w c
  rw [hv] at hc
  exact Prod.ext hc.1 rfl

theorem closing_closes (w : World) (h : Hold) : (w.closing h).closes = true := by
  unfold closing
  split <;> rfl

end World

/-! ### Programs -/

namespace Program

/-- What a program tells from a world on. -/
def story (x : Executor) : Program → World → Story
  | done _, _ => .done
  | act op next, w => .told (op.notices x w) ((next (op.perform x w).1).story x (op.perform x w).2)
  | call c body next, w =>
    let w₁ := (w.enter x c).2
    .told (w.resolveCall x c.assumed).notices <|
      match (w.resolveCall x c.assumed).value with
      | .ok i =>
        let a := w.activation c i fun e => (next e).work
        let b := body.eval x w₁
        let y := w.context c.context
        .call ⟨⟨i.kind, i.principal⟩, y.depth, y.principal, b.ending.isPanic, b.world.closing a.hold⟩
          (body.story x w₁)
          ((next b.ending).story x (b.world.leave .sync a b.ending.isPanic))
      | .error e => .refused e ((next (.error (.resolution e))).story x w₁)
      | .panic text => (next (.panic text)).story x w₁

theorem story_sound (x : Executor) (p : Program) (w : World) : (p.story x w).Sound := by
  induction p generalizing w with
  | done e => trivial
  | act op next ih => exact ⟨op.notices_audited x w, ih _ _⟩
  | call c body next ihb ihn =>
    simp only [story, Story.Sound]
    refine ⟨fun n hn => Notice.fails_of_unaudited (w.resolveCall_unaudited x c.assumed n hn), ?_⟩
    rcases (w.resolveCall x c.assumed).value with i | e | text <;> dsimp only
    · exact ⟨World.closing_closes .., ihb _, ihn _ _⟩
    · exact ihn _ _
    · exact ihn _ _

/-- A call leaves the span that it entered. -/
theorem leave_strung {c : Call} {a : Activation} {w w₁ w₂ : World} {d : Option Nat}
    (h : w.enter x c = (.ok (a.hold, a.span), w₁)) (hw : w₁.Strung { w₁.strand with bound := d } w₂)
    (unwinding : Bool) : w.Strung { w.strand with bound := d } (w₂.leave .sync a unwinding) := by
  have hbegin := World.Strung.begin_ok h
  have hleave := World.Strung.leave w₂ .sync a unwinding
  have hback : w₂.strand.leave a.span.toList = { w.strand with bound := d } := by
    rw [hw.strand, hbegin.strand]
    simp [Strand.leave, Strand.enter]
  rw [hback] at hleave
  exact (hbegin.trans hw).trans hleave

/-- Of the running thread a program changes at most the binding. -/
theorem eval_strung (x : Executor) (p : Program) (w : World) :
    ∃ b, w.Strung { w.strand with bound := b } (p.eval x w).world := by
  induction p generalizing w with
  | done e => exact ⟨w.strand.bound, .refl w⟩
  | act op next ih =>
    have hw := op.perform_strung x w
    obtain ⟨b, h⟩ := ih (op.perform x w).1 (op.perform x w).2
    rw [hw.strand] at h
    exact ⟨b, hw.trans h⟩
  | call c body next ihb ihn =>
    rcases World.enter_ok_or_failed x w c with ⟨hold, span, w₁, h⟩ | ⟨o, e, w₁, h, he⟩
    · rw [eval_call_ok h]
      let a : Activation := ⟨hold, span, fun e => (next e).work⟩
      let b := body.eval x w₁
      obtain ⟨d, hbody⟩ := ihb w₁
      have hcall := leave_strung (a := a) h hbody b.ending.isPanic
      obtain ⟨d', hnext⟩ := ihn b.ending (b.world.leave .sync a b.ending.isPanic)
      rw [hcall.strand] at hnext
      exact ⟨d', hcall.trans hnext⟩
    · rw [eval_call_failed h he]
      have hw := World.Strung.begin_failed h he
      obtain ⟨b, h'⟩ := ihn e w₁
      rw [hw.strand] at h'
      exact ⟨b, hw.trans h'⟩

/-- The log gets the lines of the story. -/
theorem eval_lines (x : Executor) (p : Program) (w : World) : (p.eval x w).world.lines =
    w.lines ++ (p.story x w).lines w.spansOn w.scene := by
  induction p generalizing w with
  | done e => exact (List.append_nil _).symm
  | act op next ih =>
    have hw := op.perform_strung x w
    have hscene : (op.perform x w).2.scene = w.scene := hw.scene
    have h := ih (op.perform x w).1 (op.perform x w).2
    rw [op.perform_lines, hscene, hw.spansOn, List.append_assoc] at h
    exact h
  | call c body next ihb ihn =>
    have hlines := World.lines_enter x w c
    -- what comes after a call that did not begin is told in the same scene
    have hfailed : ∀ o e, w.enter x c = (o, (w.enter x c).2) → o.failure? = some e →
        ((call c body next).eval x w).world.lines = (w.enter x c).2.lines ++
          ((next e).story x (w.enter x c).2).lines w.spansOn w.scene := by
      intro o e h he
      have hw := World.Strung.begin_failed h he
      have hscene : (w.enter x c).2.scene = w.scene := hw.scene
      rw [eval_call_failed h he, ihn, hscene, hw.spansOn]
    rcases hv : (w.resolveCall x c.assumed).value with i | e | text <;>
      simp only [hv, story] at hlines ⊢
    · let a := w.activation c i fun e => (next e).work
      let w₁ := (w.enter x c).2
      let b := body.eval x w₁
      let w₂ := b.world.leave .sync a b.ending.isPanic
      have h : w.enter x c = (.ok (a.hold, a.span), w₁) := World.enter_of_ok _ hv
      have hbegin : w.Strung (w.strand.enter a.span.toList) w₁ := World.Strung.begin_ok h
      have hin : w₁.scene = w.callScene i := hbegin.scene.trans (w.scene_enter_newSpan i)
      obtain ⟨d, hbody⟩ := body.eval_strung x w₁
      have hbscene : b.world.scene = w.callScene i := Eq.trans hbody.scene hin
      have hcall := leave_strung (a := a) h hbody b.ending.isPanic
      have hout : w₂.scene = w.scene := hcall.scene
      have hon₁ : w₁.spansOn = w.spansOn := hbegin.spansOn
      have hon₂ : w₂.spansOn = w.spansOn := hcall.spansOn
      have hworld : ((call c body next).eval x w).world = ((next b.ending).eval x w₂).world :=
        eval_call_ok h
      have hleft : w₂.lines =
          b.world.lines ++ (b.world.closings a.hold b.ending.isPanic).map b.world.scene.line :=
        b.world.lines_leave_sync a b.ending.isPanic
      rw [hworld, ihn, hout, hon₂, hleft, hbscene, ihb, hin, hon₁, hlines]
      simp [Story.lines, World.callScene, Visit.closings, World.closings, List.append_assoc, a, b, w₁,
        w₂]
    · rw [hfailed _ _ (World.enter_of_error hv) rfl, hlines]
      simp [Story.lines, List.append_assoc]
    · rw [hfailed _ _ (World.enter_of_panic hv) rfl, hlines]
      simp [Story.lines, List.append_assoc]

end Program
end Guise

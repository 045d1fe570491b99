import Guise.Proofs.Strands

/-!
# What the log is told

A line of the log is a notice with the scene in which it is told: the calls of the current span, and
those of all spans that the thread is in. `World.lines` are the lines of a journal. Each function of a
world tells what it tells in the scene of the running thread (`lines_record`, `lines_restore`,
`Op.perform_lines`), but for a call that begins: it is in its own span when it tells that it installed
its identity (`lines_enter`).

The lines of a whole program are read off a `Story`, which has one node for each call that began, with
what was told inside it and after it. `Program.eval_lines` proves the reading right.
-/

namespace Guise

/-- Where something is told: the calls of the current span, the nearest first, and those of all spans
that the thread is in, the latest first. -/
structure Scene where
  span : List Caller
  entered : List Caller
  deriving DecidableEq

/-- A line of the log. -/
structure Line where
  notice : Notice
  callers : List Caller
  entered : List Caller
  deriving DecidableEq

namespace Scene

/-- The scene inside the span of one more call. -/
def push (s : Scene) (c : Caller) : Scene := ⟨c :: s.span, c :: s.entered⟩

def line (s : Scene) (n : Notice) : Line := ⟨n, s.span.reverse, s.entered⟩

@[simp] theorem notice_line (s : Scene) (n : Notice) : (s.line n).notice = n := rfl

@[simp] theorem map_notice_line (s : Scene) (ns : List Notice) :
    (ns.map s.line).map Line.notice = ns := by
  rw [List.map_map]
  exact List.map_id ns

end Scene

def Strand.scene (s : Strand) : Scene := ⟨s.entered.headD [], s.entered.filterMap List.head?⟩

def Entry.line? : Entry → Option Line
  | .told n callers entered => some ⟨n, callers, entered⟩
  | _ => none

def Sign.notice? : Sign → Option Notice
  | .told n => some n
  | .asked _ => none

def Traced.notices {α : Type} (r : Traced α) : List Notice := r.signs.filterMap Sign.notice?

namespace World
variable {w w' : World}

def scene (w : World) : Scene := w.strand.scene

def lines (w : World) : List Line := w.journal.filterMap Entry.line?

/-- The scene inside a call that installs an identity now. -/
def callScene (w : World) (i : Identity) : Scene :=
  if w.spansOn then w.scene.push ⟨i.kind, i.principal⟩ else w.scene

/-- What the log hears of a frame that is taken back: what then shows, or that it is not there. -/
def closing (w : World) (h : Hold) : Notice :=
  match (w.context h.context).pop h.frame with
  | (true, y) => .restored y.principal y.depth
  | (false, _) => .frameGone h.frame

/-- What the log hears when a call is left. -/
def closings (w : World) (h : Hold) (unwinding : Bool) : List Notice :=
  (if unwinding then [.unwinding] else []) ++ [w.closing h]

theorem Strung.scene {s : Strand} (h : w.Strung s w') : w'.scene = s.scene :=
  congrArg Strand.scene h.strand

theorem lines_eq (h : w'.journal = w.journal) : w'.lines = w.lines := by rw [lines, lines, h]

theorem lines_write (w : World) (e : Entry) : (w.write e).lines = w.lines ++ e.line?.toList := by
  have hone : ([e].filterMap Entry.line?) = e.line?.toList := by
    rw [List.filterMap_cons]
    cases e.line? <;> rfl
  exact List.filterMap_append.trans (congrArg (w.lines ++ ·) hone)

theorem lines_tell (w : World) (n : Notice) : (w.tell n).lines = w.lines ++ [w.scene.line n] :=
  lines_write w _

theorem lines_record (w : World) (signs : List Sign) : (w.record signs).lines =
    w.lines ++ (signs.filterMap Sign.notice?).map w.scene.line := by
  induction signs generalizing w with
  | nil => exact (List.append_nil _).symm
  | cons s signs ih =>
    cases s with
    | asked q =>
      refine (ih (w.write (.asked q))).trans ?_
      rw [lines_write]
      simp [Entry.line?]
      rfl
    | told n =>
      refine (ih (w.tell n)).trans ?_
      rw [lines_tell, List.append_assoc]
      rfl

theorem lines_enterSpan (w : World) (span : Option Span) : (w.enterSpan span).lines = w.lines := by
  cases span <;> rfl

theorem lines_exitSpan (w : World) (span : Option Span) : (w.exitSpan span).lines = w.lines := by
  cases span <;> rfl

theorem scene_enter_newSpan (w : World) (i : Identity) :
    (w.strand.enter (w.newSpan i).toList).scene = w.callScene i := by
  unfold newSpan callScene
  split <;> rfl

/-! ### Calls -/

theorem lines_install (w : World) (c : Nat) (i : Identity) : (w.install c i).2.lines =
    w.lines ++ [(w.callScene i).line (.installed ((w.context c).depth + 1))] := by
  let w₁ := (w.mint i).2.enterSpan ((w.mint i).2.newSpan i)
  have hlines : w₁.lines = w.lines := lines_enterSpan _ _
  have hcontext : w₁.context c = w.context c := (Quiet.enterSpan (w.mint i).2 _).context c
  have hscene : w₁.scene = w.callScene i := by
    rw [scene, (Strung.enterSpan (w.mint i).2 ((w.mint i).2.newSpan i)).strand]
    exact scene_enter_newSpan w i
  have htold := lines_tell (w₁.setContext c ((w₁.context c).push (some ⟨w.tokenCount, i⟩)).2)
    (.installed ((w₁.context c).depth + 1))
  refine htold.trans ?_
  rw [show (w₁.setContext c _).scene = w₁.scene from rfl, hscene, hcontext]
  exact congrArg (· ++ _) hlines

/-- A call tells first what its resolution tells, outside its span. Then it tells in its span that its
identity is installed, or outside that there is none. -/
theorem lines_enter (x : Executor) (w : World) (c : Call) : (w.enter x c).2.lines =
    w.lines ++ ((w.resolveCall x c.assumed).notices.map w.scene.line ++
      match (w.resolveCall x c.assumed).value with
      | .ok i => [(w.callScene i).line (.installed ((w.context c.context).depth + 1))]
      | .error e => [w.scene.line (.resolutionFailed e)]
      | .panic _ => []) := by
  have hr := lines_record w (w.resolveCall x c.assumed).signs
  have hs := (Strung.record w (w.resolveCall x c.assumed).signs)
  have hscene : (w.record (w.resolveCall x c.assumed).signs).scene = w.scene := hs.scene
  have hcall : ∀ i, (w.record (w.resolveCall x c.assumed).signs).callScene i = w.callScene i := by
    intro i
    rw [callScene, callScene, hs.spansOn, hscene]
  have hcontext := (Quiet.record w (w.resolveCall x c.assumed).signs).context c.context
  rw [← List.append_assoc]
  unfold enter
  split <;> rename_i hv <;> simp only [hv]
  · rename_i i
    refine (lines_install _ _ i).trans ?_
    rw [hr, hcall, hcontext]
    rfl
  · refine (lines_tell _ _).trans ?_
    rw [hr, hscene]
    rfl
  · rw [hr, List.append_nil]
    rfl

theorem lines_restore (w : World) (h : Hold) (unwinding : Bool) : (w.restore h unwinding).lines =
    w.lines ++ (w.closings h unwinding).map w.scene.line := by
  have htold : ∀ w₁ : World, w₁.context h.context = w.context h.context → w₁.scene = w.scene →
      (match (w₁.context h.context).pop h.frame with
      | (true, y) => (w₁.setContext h.context y).tell (.restored y.principal y.depth)
      | (false, _) => w₁.tell (.frameGone h.frame)).lines =
        w₁.lines ++ [w.scene.line (w.closing h)] := by
    intro w₁ hcontext hscene
    unfold closing
    rw [hcontext, ← hscene]
    split <;> exact lines_tell _ _
  unfold restore
  cases unwinding with
  | false => exact htold w rfl rfl
  | true =>
    refine (htold (w.tell .unwinding) rfl rfl).trans ?_
    rw [lines_tell, List.append_assoc]
    rfl

/-- A synchronous call tells its end inside its span. -/
theorem lines_leave_sync (w : World) (a : Activation) (unwinding : Bool) :
    (w.leave .sync a unwinding).lines =
      w.lines ++ (w.closings a.hold unwinding).map w.scene.line :=
  (lines_exitSpan _ _).trans (lines_restore w a.hold unwinding)

end World

/-! ### Operations -/

/-- What an operation tells. -/
def Op.notices (x : Executor) (w : World) : Op → List Notice
  | .become _ p =>
    let r := x.identify w.lookups none p
    r.notices ++ match r.value with
      | .ok _ => [.became p]
      | .error e => [.resolutionFailed e]
      | .panic _ => []
  | .resolve q => (q.answer x w.lookups).notices
  | _ => []

namespace World

theorem journal_numberSlot (w : World) (t : Option Token) : (w.numberSlot t).2.journal = w.journal := by
  cases t with
  | none => rfl
  | some t =>
    show (w.number t).2.journal = w.journal
    unfold number
    split <;> rfl

theorem journal_survey (w : World) (cs : List Nat) : (w.survey cs).2.journal = w.journal := by
  induction cs generalizing w with
  | nil => rfl
  | cons c cs ih => exact (ih _).trans (journal_numberSlot w _)

theorem lines_note (w : World) (place verb : String) (r : Report) :
    (w.note place verb r).lines = w.lines := by
  refine (lines_write (w.survey w.known).2 _).trans ?_
  rw [lines_eq (journal_survey w w.known)]
  exact List.append_nil _

end World

namespace Op

theorem become_lines (x : Executor) (w : World) (c : Nat) (p : String) :
    (performBecome x w c p).2.lines = w.lines ++ ((Op.become c p).notices x w).map w.scene.line := by
  have hr := w.lines_record (x.identify w.lookups none p).signs
  have hscene : (w.record (x.identify w.lookups none p).signs).scene = w.scene :=
    (World.Strung.record w _).scene
  have htold : ∀ (w₁ : World) n, w₁.journal = (w.record (x.identify w.lookups none p).signs).journal →
      w₁.scene = w.scene → (w₁.tell n).lines =
        w.lines ++ ((x.identify w.lookups none p).notices ++ [n]).map w.scene.line := by
    intro w₁ n hj hs
    rw [World.lines_tell, World.lines_eq hj, hr, hs, List.map_append, List.append_assoc]
    rfl
  unfold performBecome
  dsimp only [notices]
  cases (x.identify w.lookups none p).value with
  | ok i => exact htold _ _ rfl hscene
  | error e => exact htold _ _ rfl hscene
  | panic text =>
    dsimp only
    rw [hr, List.append_nil]
    rfl

/-- An operation tells in the scene of the running thread. -/
theorem perform_lines (x : Executor) (w : World) (op : Op) :
    (op.perform x w).2.lines = w.lines ++ (op.notices x w).map w.scene.line := by
  have hsilent : ∀ w' : World, w'.lines = w.lines → w'.lines = w.lines ++ [].map w.scene.line :=
    fun w' h => h.trans (List.append_nil _).symm
  cases op with
  | become c p => exact become_lines x w c p
  | resolve q => exact w.lines_record _
  | bound =>
    refine hsilent w.bound.2 (World.lines_eq ?_)
    unfold World.bound
    split <;> rfl
  | number t => exact hsilent _ (World.lines_eq (w.journal_numberSlot t))
  | know c =>
    refine hsilent (w.know c).2 (World.lines_eq ?_)
    unfold World.know
    split <;> rfl
  | note place verb r => exact hsilent _ (w.lines_note place verb r)
  | look | put | replace | push | pop | mint | newContext | bind | unbind | isBound | arrange
  | registered | met | known | label | labelled | mark | marks => exact (List.append_nil _).symm

end Op
end Guise

import Guise.Proofs.Dropping
import Guise.Proofs.Resolving

/-!
# What is asked of the collaborators

`Machine.asks` is the protocol: which questions a step puts to the collaborators, and in which order.
Only three things ask at all: beginning a call, becoming somebody, and a resolution that installs
nothing. The log of a run has the questions of its steps and no other (`questions_run`), because every
other step, among them the end of a call, a poll and the dropping of a future, asks nobody
(`step_unasked`). A call has asked all that it ever asks before its frame is pushed
(`enter_journal`).
-/

namespace Guise

/-! ### The protocol -/

/-- The questions about the identity of a user: none about the anonymous principal, and one about any
other, under the tenant of the question or the default one. -/
def Executor.asksAbout (x : Executor) (tenant : Option Tenant) (p : String) : List Question :=
  if p = x.config.anonymousUser then [] else [.roles (tenant.or x.defaultTenant) p]

/-- The questions about the system: its name, and if there is one, the roles of that name, whoever it
is. -/
def Executor.asksSystem (x : Executor) (l : Lookups) : List Question :=
  .name x.config.systemKey :: match l.name x.config.systemKey with
    | .ok (some p) => [.roles x.defaultTenant p]
    | _ => []

def Executor.asksFor (x : Executor) (l : Lookups) : Assumed → List Question
  | .system => x.asksSystem l
  | .user p => x.asksAbout none p
  | .anonymous | .identity _ => []

def Query.asks (x : Executor) (l : Lookups) : Query → List Question
  | .identity tenant p => x.asksAbout tenant p
  | .authorities tenant p => [.roles (tenant.or x.defaultTenant) p]
  | .systemPrincipal => [.name x.config.systemKey]
  | .systemIdentity => x.asksSystem l

def Op.asks (x : Executor) (l : Lookups) : Op → List Question
  | .become _ p => x.asksAbout none p
  | .resolve q => q.asks x l
  | _ => []

def Machine.asks (x : Executor) (m : Machine) : List Question :=
  match m.work with
  | .act op _ => op.asks x m.world.lookups
  | .call _ c _ _ => x.asksFor m.world.lookups c.assumed
  | _ => []

def Op.arranges? : Op → Option Lookups.Edit
  | .arrange e => some e
  | _ => none

/-- The change of the collaborators that the next step makes. -/
def Machine.arranges? (m : Machine) : Option Lookups.Edit :=
  match m.work with
  | .act op _ => op.arranges?
  | _ => none

/-! ### Resolutions -/

def Sign.question? : Sign → Option Question
  | .asked q => some q
  | .told _ => none

def Traced.questions {α : Type} (r : Traced α) : List Question := r.signs.filterMap Sign.question?

namespace Executor
variable (x : Executor) (l : Lookups)

theorem resolve_questions (tenant : Option Tenant) (p : String) :
    (x.resolve l tenant p).questions = [.roles (tenant.or x.defaultTenant) p] := by
  unfold resolve
  dsimp only
  split
  · split <;> rfl
  all_goals rfl

theorem identify_questions (tenant : Option Tenant) (p : String) :
    (x.identify l tenant p).questions = x.asksAbout tenant p := by
  unfold identify asksAbout
  split
  · rfl
  · exact x.resolve_questions l tenant p

theorem systemPrincipal_questions :
    (x.systemPrincipal l).questions = [.name x.config.systemKey] := by
  unfold systemPrincipal
  dsimp only
  split <;> rfl

theorem system_questions : (x.system l).questions = x.asksSystem l := by
  unfold system systemPrincipal asksSystem
  rcases hname : l.name x.config.systemKey with (_ | p) | ⟨⟨⟩⟩ | text <;> simp only [hname]
  · rfl
  · exact congrArg (Question.name x.config.systemKey :: ·) (x.resolve_questions l none p)
  · rfl

end Executor

theorem Query.answer_questions (x : Executor) (l : Lookups) (q : Query) :
    (q.answer x l).questions = q.asks x l := by
  cases q with
  | identity tenant p => exact x.identify_questions l tenant p
  | authorities tenant p => exact x.resolve_questions l tenant p
  | systemPrincipal => exact x.systemPrincipal_questions l
  | systemIdentity => exact x.system_questions l

/-! ### The log -/

namespace World
variable {x : Executor} {w w' : World}

theorem resolveCall_questions (x : Executor) (w : World) (a : Assumed) :
    (w.resolveCall x a).questions = x.asksFor w.lookups a := by
  cases a with
  | system => exact x.system_questions w.lookups
  | user p => exact x.identify_questions w.lookups none p
  | anonymous => rfl
  | identity i => rfl

theorem record_journal (w : World) (signs : List Sign) :
    ∃ es, (w.record signs).journal = w.journal ++ es ∧
      es.filterMap Entry.question? = signs.filterMap Sign.question? := by
  induction signs generalizing w with
  | nil => exact ⟨[], (List.append_nil _).symm, rfl⟩
  | cons s signs ih =>
    cases s with
    | asked q =>
      obtain ⟨es, hes, hq⟩ := ih (w.write (.asked q))
      refine ⟨.asked q :: es, hes.trans (List.append_assoc ..), ?_⟩
      exact congrArg (q :: ·) hq
    | told n =>
      obtain ⟨es, hes, hq⟩ := ih (w.tell n)
      exact ⟨_ :: es, hes.trans (List.append_assoc ..), hq⟩

theorem questions_record (w : World) (signs : List Sign) :
    (w.record signs).questions = w.questions ++ signs.filterMap Sign.question? := by
  obtain ⟨es, hes, hq⟩ := w.record_journal signs
  rw [questions_eq, questions_eq, hes, List.filterMap_append, hq]

theorem tell_journal (w : World) (n : Notice) :
    ∃ callers entered, (w.tell n).journal = w.journal ++ [.told n callers entered] := ⟨_, _, rfl⟩

/-- Of an installation the log hears once, and of the depth with the new frame. -/
theorem install_journal (w : World) (c : Nat) (i : Identity) : ∃ callers entered,
    (w.install c i).2.journal =
      w.journal ++ [.told (.installed ((w.context c).depth + 1)) callers entered] := by
  have hspan : ∀ s : Option Span, ((w.mint i).2.enterSpan s).journal = w.journal ∧
      ((w.mint i).2.enterSpan s).context c = w.context c := by
    intro s
    cases s <;> exact ⟨rfl, rfl⟩
  obtain ⟨hjournal, hcontext⟩ := hspan ((w.mint i).2.newSpan i)
  unfold install
  dsimp only
  rw [hcontext]
  obtain ⟨callers, entered, htold⟩ := tell_journal
    (((w.mint i).2.enterSpan ((w.mint i).2.newSpan i)).setContext c
      ((w.context c).push (some ⟨w.tokenCount, i⟩)).2) (.installed ((w.context c).depth + 1))
  refine ⟨callers, entered, ?_⟩
  rw [← hjournal]
  exact htold

/-- A call puts its questions first. Only then it tells that its identity is installed, or that there
is none, and that is all that the log hears of its beginning. -/
theorem enter_journal (x : Executor) (w : World) (c : Call) :
    ∃ asked, asked.filterMap Entry.question? = x.asksFor w.lookups c.assumed ∧
      match (w.resolveCall x c.assumed).value with
      | .ok _ => ∃ callers entered, (w.enter x c).2.journal =
          w.journal ++ asked ++ [.told (.installed ((w.context c.context).depth + 1)) callers entered]
      | .error e => ∃ callers entered, (w.enter x c).2.journal =
          w.journal ++ asked ++ [.told (.resolutionFailed e) callers entered]
      | .panic _ => (w.enter x c).2.journal = w.journal ++ asked := by
  obtain ⟨asked, hes, hq⟩ := w.record_journal (w.resolveCall x c.assumed).signs
  have hcontext := (Quiet.record w (w.resolveCall x c.assumed).signs).context c.context
  refine ⟨asked, hq.trans (resolveCall_questions x w c.assumed), ?_⟩
  -- by now everything is asked; what is left tells of the frame or of the failure
  unfold enter
  split <;> rename_i hv <;> simp only [hv]
  · rw [← hes, ← hcontext]
    exact install_journal _ _ _
  · rw [← hes]
    exact tell_journal _ _
  · exact hes

theorem questions_enter (x : Executor) (w : World) (c : Call) :
    (w.enter x c).2.questions = w.questions ++ x.asksFor w.lookups c.assumed := by
  obtain ⟨asked, hq, hj⟩ := enter_journal x w c
  -- being told is no question
  have htold : ∀ n callers entered, (w.journal ++ asked ++ [Entry.told n callers entered]).filterMap
      Entry.question? = (w.journal ++ asked).filterMap Entry.question? := by
    intro n callers entered
    rw [List.filterMap_append]
    exact List.append_nil _
  rw [questions_eq, questions_eq, ← hq, ← List.filterMap_append]
  split at hj
  · obtain ⟨_, _, hj⟩ := hj
    rw [hj, htold]
  · obtain ⟨_, _, hj⟩ := hj
    rw [hj, htold]
  · rw [hj]

/-- Nobody was asked, and the collaborators are as they were. -/
structure Unasked (w w' : World) : Prop where
  questions : w'.questions = w.questions
  lookups : w'.lookups = w.lookups

namespace Unasked

theorem refl (w : World) : Unasked w w := ⟨rfl, rfl⟩

theorem leave (w : World) (mode : Mode) (a : Activation) (unwinding : Bool) :
    Unasked w (w.leave mode a unwinding) :=
  ⟨w.questions_leave mode a unwinding, (w.leave_pops mode a unwinding).lookups⟩

theorem cancel (w : World) (calls : List Activation) : Unasked w (w.cancel calls) :=
  ⟨w.questions_cancel calls, (w.cancel_pops calls).lookups⟩

theorem enterAll (w : World) (calls : List Activation) : Unasked w (w.enterAll calls) := by
  refine ⟨?_, (Quiet.enterAll w calls).lookups⟩
  induction calls with
  | nil => rfl
  | cons a calls ih => exact (questions_enterSpan _ a.span).trans ih

theorem exitAll (w : World) (calls : List Activation) : Unasked w (w.exitAll calls) := by
  refine ⟨?_, (Quiet.exitAll w calls).lookups⟩
  induction calls generalizing w with
  | nil => rfl
  | cons a calls ih => exact (ih (w.exitSpan a.span)).trans (questions_exitSpan w a.span)

theorem bound (w : World) : Unasked w w.bound.2 := by
  unfold World.bound
  split <;> exact ⟨rfl, rfl⟩

theorem number (w : World) (t : Option Token) : Unasked w (w.numberSlot t).2 := by
  refine ⟨?_, (Quiet.numberSlot w t).lookups⟩
  cases t with
  | none => rfl
  | some t =>
    show (w.number t).2.questions = _
    unfold World.number
    split <;> rfl

theorem note (w : World) (place verb : String) (r : Report) : Unasked w (w.note place verb r) := by
  have hsurvey : ∀ (cs : List Nat) (w : World), (w.survey cs).2.questions = w.questions := by
    intro cs
    induction cs with
    | nil => exact fun _ => rfl
    | cons c cs ih => exact fun w => (ih _).trans (number w (w.context c).visible).questions
  refine ⟨?_, (Quiet.note w place verb r).lookups⟩
  rw [← hsurvey w.known w, questions_eq, questions_eq]
  exact (List.filterMap_append ..).trans (List.append_nil _)

theorem know (w : World) (c : Nat) : Unasked w (w.know c).2 := by
  unfold World.know
  split <;> exact ⟨rfl, rfl⟩

end Unasked
end World

/-! ### Steps -/

theorem Op.perform_questions (x : Executor) (w : World) (op : Op) :
    (op.perform x w).2.questions = w.questions ++ op.asks x w.lookups := by
  have hnone : ∀ w' : World, w.Unasked w' → w'.questions = w.questions ++ [] := fun w' h =>
    h.questions.trans (List.append_nil _).symm
  cases op with
  | become c p =>
    have hr := w.questions_record (x.identify w.lookups none p).signs
    rw [show List.filterMap _ _ = _ from x.identify_questions w.lookups none p] at hr
    show (performBecome x w c p).2.questions = _ ++ x.asksAbout none p
    unfold performBecome
    dsimp only
    split
    · exact (World.questions_tell _ _).trans hr
    · exact (World.questions_tell _ _).trans hr
    · exact hr
  | resolve q =>
    exact (w.questions_record _).trans (congrArg (w.questions ++ ·) (q.answer_questions x w.lookups))
  | bound => exact hnone _ (.bound w)
  | number t => exact hnone _ (.number w t)
  | know c => exact hnone _ (.know w c)
  | note place verb r => exact hnone _ (.note w place verb r)
  | look | put | replace | push | pop | mint | newContext | bind | unbind | isBound | arrange
  | registered | met | known | label | labelled | mark | marks => exact (List.append_nil _).symm

theorem Op.perform_lookups (x : Executor) (w : World) (op : Op) :
    (op.perform x w).2.lookups = (op.arranges?.map (·.apply w.lookups)).getD w.lookups := by
  cases op with
  | become c p =>
    have h := performBecome_cases x w c p
    show (performBecome x w c p).2.lookups = w.lookups
    split at h <;> exact h.2.lookups
  | resolve q => exact (World.Quiet.record w _).lookups
  | bound => exact (World.Unasked.bound w).lookups
  | number t => exact (World.Unasked.number w t).lookups
  | know c => exact (World.Unasked.know w c).lookups
  | note place verb r => exact (World.Unasked.note w place verb r).lookups
  | look | put | replace | push | pop | mint | newContext | bind | unbind | isBound | arrange
  | registered | met | known | label | labelled | mark | marks => rfl

namespace Machine
variable {x : Executor} {m : Machine}

theorem dropFuture_unasked (m : Machine) (name : String) :
    m.world.Unasked (m.dropFuture name).world := by
  unfold dropFuture
  split
  · exact .cancel _ _
  · exact .refl _

/-- A step that performs no operation and begins no call asks nobody. -/
theorem step_unasked (x : Executor) (h : m.work.Next (fun _ => False) fun _ => False) :
    m.world.Unasked (m.step x).world := by
  unfold step
  split <;> rename_i hm
  · unfold finish
    split
    · exact .refl _
    · exact .leave ..
    · exact .refl _
    · exact ⟨rfl, rfl⟩
  · rw [hm] at h
    exact h.elim
  · rw [hm] at h
    exact h.elim
  · exact m.dropFuture_unasked _
  · unfold poll
    split
    · exact .refl _
    · exact .enterAll ..
  · exact m.dropFuture_unasked _
  · unfold yield
    split
    · exact .refl _
    · rename_i calls name polled rest hs
      have hexit := World.Unasked.exitAll m.world calls
      have hdrop := dropFuture_unasked { m with world := m.world.exitAll calls } name
      exact ⟨hdrop.questions.trans hexit.questions, hdrop.lookups.trans hexit.lookups⟩
  · rename_i name inherits body next
    unfold thread
    cases inherits with
    | false => exact ⟨rfl, rfl⟩
    | true =>
      have hb := World.Unasked.bound m.world
      exact ⟨hb.questions, hb.lookups⟩
  · unfold pause
    split <;> exact ⟨rfl, rfl⟩
  · unfold resume
    split <;> exact ⟨rfl, rfl⟩

theorem world_call (m : Machine) (x : Executor) (mode : Mode) (c : Call) (body : Work)
    (next : Ending → Work) : (m.call x mode c body next).world = (m.world.enter x c).2 := by
  unfold call
  split <;> rename_i h <;> rw [h]

theorem step_firstPoll {name : String} {c : Call} {body : Work} {fin : Ending → Work}
    {next : Polled → Work} (hm : m.work = .poll name next)
    (hf : m.futures.find? name = some ⟨.call .async c body fin, []⟩) :
    (m.step x).work = .call .async c body fin ∧ (m.step x).world = m.world := by
  have hstep : m.step x = { m with
      work := .call .async c body fin, stack := .polling name next :: m.stack,
      futures := m.futures.erase name } := by
    simp [step, hm, poll, hf, World.enterAll]
  rw [hstep]
  exact ⟨rfl, rfl⟩

theorem step_collaborators (x : Executor) (m : Machine) :
    (m.step x).world.questions = m.world.questions ++ m.asks x ∧
      (m.step x).world.lookups = (m.arranges?.map (·.apply m.world.lookups)).getD m.world.lookups := by
  have hidle : m.work.Next (fun _ => False) (fun _ => False) →
      (m.step x).world.questions = m.world.questions ++ [] ∧
        (m.step x).world.lookups = m.world.lookups := fun h =>
    have hu := step_unasked x h
    ⟨hu.questions.trans (List.append_nil _).symm, hu.lookups⟩
  unfold asks arranges?
  cases hm : m.work with
  -- only an operation and the beginning of a call ask; `hidle` has the rest
  | act op next =>
    have hworld : (m.step x).world = (op.perform x m.world).2 := by simp only [step, hm]
    rw [hworld]
    exact ⟨op.perform_questions x m.world, op.perform_lookups x m.world⟩
  | call mode c body next =>
    have hworld : (m.step x).world = (m.world.enter x c).2 := by simp only [step, hm, world_call]
    rw [hworld]
    refine ⟨World.questions_enter x m.world c, ?_⟩
    have hc := World.enter_cases x m.world c
    split at hc
    · obtain ⟨_, -, hq⟩ := hc
      exact hq.lookups
    · exact hc.2.lookups
    · exact hc.2.lookups
  | _ => exact hidle (by rw [hm]; trivial)

theorem questions_run (x : Executor) (m : Machine) (n : Nat) : (m.run x n).world.questions =
    m.world.questions ++ (List.range n).flatMap fun k => (m.run x k).asks x := by
  induction n with
  | zero => exact (List.append_nil _).symm
  | succ n ih =>
    rw [run_succ', (step_collaborators x _).1, ih, List.range_succ, List.flatMap_append,
      List.append_assoc]
    simp

/-- The log of a run has the questions that the protocol prescribes for its steps, in order, and no
other. At every moment of it, a call that begins puts its questions before its frame is installed, or
before it is known that there will be none. A future puts them when it is polled first; making it does
not, and neither does a step that only ends, suspends, polls or drops what has begun. The system has
the roles found for its name, even if that is the name of the anonymous principal. -/
theorem collaborators_asked_exactly (x : Executor) (m : Machine) (n : Nat) :
    let s := m.run x n
    s.world.questions =
      m.world.questions ++ (List.range n).flatMap (fun k => (m.run x k).asks x) ∧
    (∀ mode c body next, s.work = .call mode c body next →
      ∃ asked, asked.filterMap Entry.question? = x.asksFor s.world.lookups c.assumed ∧
        match (s.world.resolveCall x c.assumed).value with
        | .ok _ => (s.step x).work = body ∧ ∃ callers entered, (s.step x).world.journal =
            s.world.journal ++ asked ++
              [.told (.installed ((s.world.context c.context).depth + 1)) callers entered]
        | .error e => (s.step x).work = next (.error (.resolution e)) ∧
            ∃ callers entered, (s.step x).world.journal =
              s.world.journal ++ asked ++ [.told (.resolutionFailed e) callers entered]
        | .panic text => (s.step x).work = next (.panic text) ∧
            (s.step x).world.journal = s.world.journal ++ asked) ∧
    (∀ name c body fin next, s.work = .poll name next →
      s.futures.find? name = some ⟨.call .async c body fin, []⟩ →
      (s.step x).work = .call .async c body fin ∧ (s.step x).world = s.world) ∧
    (s.work.Next (fun _ => False) (fun _ => False) →
      (s.step x).world.questions = s.world.questions ∧
        (s.step x).world.lookups = s.world.lookups) ∧
    (∀ l p roles, l.name x.config.systemKey = .ok (some p) → l.roles x.defaultTenant p = .ok roles →
      (∀ r ∈ roles, Text.isBlank r = false) →
        (x.system l).value = .ok ⟨p, .ofList roles, .system⟩) := by
  intro s
  refine ⟨questions_run x m n, fun mode c body next hm => ?_, fun name c body fin next hm hf => ?_,
    fun h => ?_, fun l p roles hname hroles hblank => ?_⟩
  · obtain ⟨asked, hq, hj⟩ := World.enter_journal x s.world c
    have hworld : (s.step x).world = (s.world.enter x c).2 := by simp only [step, hm, world_call]
    have hc := World.enter_cases x s.world c
    refine ⟨asked, hq, ?_⟩
    split at hj <;> rename_i hv <;> simp only [hv] at hc ⊢
    · obtain ⟨span, he, -⟩ := hc
      refine ⟨?_, hworld ▸ hj⟩
      rw [step_call_ok hm (Prod.ext he rfl)]
    · refine ⟨?_, hworld ▸ hj⟩
      rw [step_call_failed hm (Prod.ext hc.1 rfl) rfl]
    · refine ⟨?_, hworld ▸ hj⟩
      rw [step_call_failed hm (Prod.ext hc.1 rfl) rfl]
  · exact step_firstPoll hm hf
  · have hu := step_unasked x h
    exact ⟨hu.questions, hu.lookups⟩
  · have hany : ¬ roles.any Text.isBlank = true := by simpa using hblank
    have hresolved : (x.resolve l none p).value = .ok (.ofList roles) := by
      simp only [Executor.resolve, Option.none_or, hroles, if_neg hany]
    rw [Executor.system_value, hname]
    simp only [hresolved, Outcome.andThen]

/-- A future that acts as the system, suspends itself, and is dropped. -/
def systemAbandoned : Work :=
  .future "task" (.call .async ⟨0, .system⟩ (.yield (.done (.ok .null))) .done) <|
  .poll "task" fun _ => .drop "task" fun _ => .done (.ok .null)

/-- The system has the name of the anonymous principal here. -/
theorem collaborators_asked_exactly_systemAbandoned :
    let x := Executor.ofConfig .default
    let l := Lookups.ofStores (Directory.empty.set none "anonymousUser" ["Root"])
      (Registry.empty.register "singleTenantAdminUserName" "anonymousUser")
    let m := start systemAbandoned (.start .empty 0 l false)
    (m.run x 6).world.questions =
        [.name "singleTenantAdminUserName", .roles none "anonymousUser"] ∧
      (m.run x 2).world.questions = [] ∧ (m.run x 3).world.questions = (m.run x 6).world.questions ∧
      (x.system l).value = .ok ⟨"anonymousUser", .ofList ["Root"], .system⟩ := by
  intro x l m
  obtain ⟨hend, -, -, -, hsystem⟩ := collaborators_asked_exactly x m 6
  obtain ⟨hmade, -⟩ := collaborators_asked_exactly x m 2
  obtain ⟨hpolled, -⟩ := collaborators_asked_exactly x m 3
  exact ⟨hend.trans (by decide), hmade.trans (by decide),
    hpolled.trans ((by decide : _ = _).trans hend.symm), hsystem l _ _ rfl rfl (by decide)⟩

end Machine
end Guise

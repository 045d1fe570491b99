import Guise.Proofs.Collaborators
import Guise.Proofs.Histories
import Guise.Proofs.Numbering

/-!
# What a user call grants

`Config.grants` says from the history of a directory alone who a user call runs its work as. It is what
the executor resolves, because the directory after a history has the roles that the history holds, and
because the collaborators of a run hold what they held at first with the changes that the run has made
since (`Machine.lookups_run`). After that the directory is out of the picture: the identity stands in a
slot of the context, and a slot keeps its value as long as nobody writes there by hand
(`Context.Kept`, `Machine.shows_again`).
-/

namespace Guise

/-! ### Grants -/

namespace Config
variable {c : Config} {history : List Directory.Edit} {p : String} {i : Identity}

/-- The names of the authorities of a user: the anonymous one for the anonymous principal, and for any
other what the history holds under the default tenant. -/
def granted (c : Config) (history : List Directory.Edit) (p : String) : List String :=
  if p = c.anonymousUser then [c.anonymousRole] else Directory.held history c.defaultTenant p

/-- Who a user call runs its work as, or why it does not. -/
def grants (c : Config) (history : List Directory.Edit) (p : String) :
    Outcome ResolutionError Identity :=
  let roles := Directory.held history c.defaultTenant p
  if p = c.anonymousUser then .ok ⟨p, .single c.anonymousRole, .anonymous⟩
  else if roles.any Text.isBlank then .error (.malformed p "blank role name")
  else .ok ⟨p, .ofList roles, .user⟩

theorem has_of_grants (h : c.grants history p = .ok i) (r : String) :
    i.has r = true ↔ r ∈ c.granted history p := by
  unfold grants at h
  unfold granted
  dsimp only at h
  split at h
  · cases h
    rw [if_pos ‹_›]
    exact Authorities.contains_iff.trans (Authorities.mem_ofList (l := [c.anonymousRole]))
  · split at h <;> cases h
    rw [if_neg ‹_›]
    exact Authorities.contains_iff.trans Authorities.mem_ofList

end Config

namespace Executor
variable {x : Executor} {history : List Directory.Edit} {names : Registry}

theorem resolve_after (x : Executor) (history : List Directory.Edit) (names : Registry)
    (tenant : Option Tenant) (p : String) :
    let roles := Directory.held history (tenant.or x.defaultTenant) p
    (x.resolve (.ofStores (Directory.empty.after history) names) tenant p).value =
      if roles.any Text.isBlank then .error (.malformed p "blank role name")
      else .ok (.ofList roles) := by
  intro roles
  unfold resolve Lookups.roles Lookups.ofStores
  dsimp only
  rcases Directory.roles_after history (tenant.or x.defaultTenant) p with h | ⟨h, hnone⟩
  · rw [h]
    dsimp only
    split <;> rfl
  · -- an unknown user resolves to no authority, and that is what no role collects to
    have hroles : roles = [] := hnone
    rw [h, hroles]
    rfl

theorem identify_after (h : x.defaultTenant = x.config.defaultTenant) (p : String) :
    (x.identify (.ofStores (Directory.empty.after history) names) none p).value =
      x.config.grants history p := by
  rw [identify_value, resolve_after, Option.none_or, h]
  unfold Config.grants
  dsimp only
  split
  · rename_i hp
    rw [hp]
    rfl
  · split <;> rfl

theorem ofSettings_ok {s : Settings} (h : ofSettings s = .ok x) :
    Config.ofSettings s = .ok x.config ∧ x.defaultTenant = x.config.defaultTenant := by
  unfold ofSettings at h
  cases hc : Config.ofSettings s with
  | error e =>
    rw [hc] at h
    cases h
  | ok c =>
    rw [hc] at h
    cases h
    exact ⟨rfl, rfl⟩

end Executor

/-! ### The collaborators of a run -/

namespace Lookups

def Edit.directory? : Edit → Option Directory.Edit
  | directory e => some e
  | _ => none

def Edit.disturbs : Edit → Bool
  | disturb .. => true
  | _ => false

theorem apply_ofStores {e : Edit} (h : e.disturbs = false) (d : Directory) (names : Registry) :
    ∃ names', e.apply (.ofStores d names) = .ofStores (d.after e.directory?.toList) names' := by
  cases e with
  | directory e => exact ⟨names, rfl⟩
  | registry e => exact ⟨e.apply names, rfl⟩
  | disturb => cases h
  | settle user =>
    refine ⟨names, ?_⟩
    unfold Edit.apply ofStores
    simp [Edit.directory?, Directory.after]

end Lookups

namespace Machine
variable {x : Executor} {m m' : Machine}

def edit? (m : Machine) : Option Directory.Edit := m.arranges?.bind Lookups.Edit.directory?

/-- The changes of the directory that so many steps make, in order. -/
def edits (x : Executor) (m : Machine) (n : Nat) : List Directory.Edit :=
  (List.range n).filterMap fun k => (m.run x k).edit?

theorem edits_succ (x : Executor) (m : Machine) (n : Nat) :
    m.edits x (n + 1) = m.edits x n ++ (m.run x n).edit?.toList :=
  filterMap_run_succ edit? x m n

/-- The next step leaves the answers to what the directory holds. -/
def Undisturbed (m : Machine) : Prop := m.arranges?.any Lookups.Edit.disturbs = false

instance : DecidablePred Undisturbed := fun m =>
  inferInstanceAs (Decidable (m.arranges?.any Lookups.Edit.disturbs = false))

/-- Directory and registry answer for themselves all along a run, and the directory has the changes of
the run after those of before. -/
theorem lookups_run {past : List Directory.Edit} {names : Registry}
    (h : m.world.lookups = .ofStores (Directory.empty.after past) names) (n : Nat)
    (hn : ∀ k < n, (m.run x k).Undisturbed) : ∃ names',
      (m.run x n).world.lookups = .ofStores (Directory.empty.after (past ++ m.edits x n)) names' := by
  induction n with
  | zero =>
    have hnone : m.edits x 0 = [] := rfl
    refine ⟨names, ?_⟩
    rw [hnone, List.append_nil]
    exact h
  | succ n ih =>
    obtain ⟨names', hl⟩ := ih fun k hk => hn k (Nat.lt_succ_of_lt hk)
    have hundisturbed := hn n (Nat.lt_succ_self n)
    have hstep := (step_collaborators x (m.run x n)).2
    rw [run_succ', hstep, edits_succ, hl, ← List.append_assoc]
    unfold Undisturbed at hundisturbed
    unfold edit?
    cases he : (m.run x n).arranges? with
    | none => exact ⟨names', by simp⟩
    | some e =>
      rw [he] at hundisturbed
      obtain ⟨names'', happly⟩ := Lookups.apply_ofStores (e := e) (by simpa using hundisturbed)
        (Directory.empty.after (past ++ m.edits x n)) names'
      refine ⟨names'', happly.trans ?_⟩
      exact congrArg (Lookups.ofStores · names'') List.foldl_append.symm

/-! ### The start of the work -/

/-- How a call comes out: its work begins and sees an identity, or whoever made the call goes on with
what stood in the way. -/
def Opens (x : Executor) (m : Machine) (c : Call) (body : Work) (next : Ending → Work) :
    Outcome ResolutionError Identity → Prop
  | .ok i => (m.step x).work = body ∧
      ((m.step x).world.context c.context).visible = some ⟨m.world.tokenCount, i⟩
  | .error e => m.PassesOver (next (.error (.resolution e))) (m.step x)
  | .panic text => m.PassesOver (next (.panic text)) (m.step x)

theorem call_opens {mode : Mode} {c : Call} {body : Work} {next : Ending → Work}
    (hm : m.work = .call mode c body next) :
    m.Opens x c body next (m.world.resolveCall x c.assumed).value := by
  cases hv : (m.world.resolveCall x c.assumed).value with
  | ok i =>
    obtain ⟨a, w, hstep, -, -, hq⟩ := call_starts hm hv
    refine ⟨by rw [hstep], ?_⟩
    rw [hstep, hq.context, World.context_pushed, if_pos rfl]
    rfl
  | error e => exact call_passesOver hm (by rw [hv]; rfl)
  | panic text => exact call_passesOver hm (by rw [hv]; rfl)

/-- How a `become` comes out: the identity shows, or the context is as it was. -/
def Becomes (x : Executor) (m : Machine) (c : Nat) (next : Outcome ResolutionError (Option Token) → Work) :
    Outcome ResolutionError Identity → Prop
  | .ok i => (m.step x).work = next (.ok (m.world.context c).visible) ∧
      ((m.step x).world.context c).visible = some ⟨m.world.tokenCount, i⟩
  | .error e => m.PassesOver (next (.error e)) (m.step x)
  | .panic text => m.PassesOver (next (.panic text)) (m.step x)

theorem become_becomes {c : Nat} {p : String} {next : Outcome ResolutionError (Option Token) → Work}
    (hm : m.work = .act (.become c p) next) :
    m.Becomes x c next (m.world.resolveCall x (.user p)).value := by
  have h := become_passesOver (x := x) hm
  cases hv : (m.world.resolveCall x (.user p)).value with
  | ok i =>
    rw [hv] at h
    obtain ⟨w, hstep, hq⟩ := h
    refine ⟨by rw [hstep], ?_⟩
    rw [hstep, hq.context, World.context_setContext, if_pos rfl, Context.visible_put]
  | error e =>
    rw [hv] at h
    exact h
  | panic text =>
    rw [hv] at h
    exact h

end Machine

/-! ### Slots -/

namespace Context
variable {y z : Context} {t : Option Token} {slot : Option Nat}

/-- The slot that shows: the number of the topmost frame, or none for the base. -/
def top (y : Context) : Option Nat := y.frames.head?.map (·.number)

/-- A slot has a value, if it is still there, and no other frame will get its number. -/
def Kept (y : Context) (t : Option Token) : Option Nat → Prop
  | none => y.base = t
  | some n => n < y.next ∧ ∀ f ∈ y.frames, f.number = n → f.slot = t

theorem WellNumbered.kept (h : y.WellNumbered) : y.Kept y.visible y.top := by
  obtain ⟨b, fs, n⟩ := y
  cases fs with
  | nil => exact rfl
  | cons f r =>
    refine ⟨h.below f.number (List.mem_cons_self ..), fun g hg hgf => ?_⟩
    -- no frame below has the number of the topmost
    rcases List.mem_cons.1 hg with rfl | hg
    · rfl
    · have hout := (List.nodup_cons.1 h.nodup).1
      exact absurd (List.mem_map.2 ⟨g, hg, hgf⟩) hout

/-- A value that a slot kept shows whenever that slot is the topmost. -/
theorem Kept.visible (h : y.Kept t y.top) : y.visible = t := by
  obtain ⟨b, fs, n⟩ := y
  cases fs with
  | nil => exact h
  | cons f r => exact h.2 f (List.mem_cons_self ..) rfl

theorem Kept.push (h : y.Kept t slot) (u : Option Token) : (y.push u).2.Kept t slot := by
  cases slot with
  | none => exact h
  | some n =>
    refine ⟨Nat.lt_succ_of_lt h.1, fun f hf hfn => ?_⟩
    -- the new frame is numbered by the counter, the slot below it
    rcases List.mem_cons.1 hf with rfl | hf
    · exact absurd (hfn : y.next = n).symm (Nat.ne_of_lt h.1)
    · exact h.2 f hf hfn

theorem Kept.pop (h : y.Kept t slot) (k : Nat) : (y.pop k).2.Kept t slot := by
  cases slot with
  | none => exact (y.pop_base k).trans h
  | some n => exact ⟨y.pop_next k ▸ h.1, fun f hf => h.2 f ((y.pop_frames_sublist k).subset hf)⟩

theorem Kept.popAll (h : y.Kept t slot) (ns : List Nat) : (y.popAll ns).Kept t slot := by
  induction ns generalizing y with
  | nil => exact h
  | cons n ns ih => exact ih (h.pop n)

end Context

namespace Machine
variable {x : Executor} {m m' : Machine} {c : Nat} {t : Option Token} {slot : Option Nat}

/-- The next step writes to no slot of a context by hand. -/
def Unwritten (c : Nat) (m : Machine) : Prop := m.work.Next (·.written? ≠ some c) fun _ => True

instance (c : Nat) : DecidablePred (Unwritten c) := fun m =>
  inferInstanceAs (Decidable (m.work.Next (·.written? ≠ some c) fun _ => True))

theorem Turn.kept (h : Turn x m m') (hk : (m.world.context c).Kept t slot)
    (hc : c < m.world.contextCount) (hu : m.Unwritten c) : (m'.world.context c).Kept t slot := by
  cases h with
  | operated op next hm _ hw =>
    have hch := Op.perform_change x m.world op c
    rw [← hw] at hch
    rw [Unwritten, hm] at hu
    cases hch with
    | stays hy => exact hy ▸ hk
    | written u hwritten _ => exact absurd hwritten hu
    | pushed u _ hy => exact hy ▸ hk.push u
    | popped n _ hy => exact hy ▸ hk.pop n
    | made u hmade _ => exact absurd hmade (Nat.ne_of_gt hc)
  | installed i hi =>
    have hctx := hi.context c
    split at hctx
    · exact hctx ▸ hk.push _
    · exact hctx ▸ hk
  | begun u _ hb =>
    rcases hb.context c with hy | ⟨hmade, -⟩
    · exact hy ▸ hk
    · exact absurd hmade (Nat.ne_of_gt hc)
  | released gone _ hr => exact hr.world.context c ▸ hk.popAll _

/-- While nobody writes in a context by hand, the same token shows whenever the same slot is on top,
whatever else the run does. -/
theorem shows_again (x : Executor) (work : Work) {w : World} (hr : (w.context c).Reachable) (n k : Nat)
    (hc : c < ((start work w).run x n).world.contextCount)
    (hu : ∀ j < k, ((start work w).run x (n + j)).Unwritten c)
    (htop : (((start work w).run x (n + k)).world.context c).top =
      (((start work w).run x n).world.context c).top) :
    (((start work w).run x (n + k)).world.context c).visible =
      (((start work w).run x n).world.context c).visible := by
  have hkept : (((start work w).run x (n + k)).world.context c).Kept
      (((start work w).run x n).world.context c).visible
      (((start work w).run x n).world.context c).top := by
    clear htop
    induction k with
    | zero => exact (run_reachable x work hr n).wellNumbered.kept
    | succ k ih =>
      have hlt := (run_leads x work w hc k).2
      exact (run_turn x work w (n + k)).kept (ih fun j hj => hu j (Nat.lt_succ_of_lt hj)) hlt
        (hu k (Nat.lt_succ_self k))
  rw [← htop] at hkept
  exact hkept.visible

/-- A user call, a future of one at its first poll, and a `become` show who the history of the
directory grants, with just the authorities that it grants, or are refused if the history grants
nothing. The history is that of before the run with the changes made in it so far. Later changes are
for later calls: they change no context, and the slot of a call that runs shows the same token whenever
it is on top. -/
theorem granted_exactly {s : Settings} {x : Executor} (hx : Executor.ofSettings s = .ok x)
    (work : Work) (w : World) (past : List Directory.Edit) (names : Registry)
    (hw : w.lookups = .ofStores (Directory.empty.after past) names) (n : Nat)
    (hn : ∀ k < n, ((start work w).run x k).Undisturbed) :
    let m := (start work w).run x n
    let history := past ++ (start work w).edits x n
    Config.ofSettings s = .ok x.config ∧
    (∀ mode c p body next, m.work = .call mode ⟨c, .user p⟩ body next →
      m.Opens x ⟨c, .user p⟩ body next (x.config.grants history p)) ∧
    (∀ name c p body fin next, m.work = .poll name next →
      m.futures.find? name = some ⟨.call .async ⟨c, .user p⟩ body fin, []⟩ →
      (m.step x).Opens x ⟨c, .user p⟩ body fin (x.config.grants history p)) ∧
    (∀ c p next, m.work = .act (.become c p) next →
      m.Becomes x c next (x.config.grants history p)) ∧
    (∀ p i serial y, x.config.grants history p = .ok i → Context.visible y = some ⟨serial, i⟩ →
      (∀ r, y.has r = true ↔ r ∈ x.config.granted history p) ∧
      (Look.isAdministrator.answer x y = true ↔
        x.config.adminRole ∈ x.config.granted history p)) ∧
    (∀ e next, m.work = .act (.arrange e) next →
      ∀ c, (m.step x).world.context c = m.world.context c) ∧
    (∀ c k, (w.context c).Reachable → c < m.world.contextCount →
      (∀ j < k, ((start work w).run x (n + 1 + j)).Unwritten c) →
      let y := ((start work w).run x (n + 1 + k)).world.context c
      y.top = ((m.step x).world.context c).top →
        y.visible = ((m.step x).world.context c).visible) := by
  intro m history
  obtain ⟨hconfig, htenant⟩ := Executor.ofSettings_ok hx
  obtain ⟨names', hl⟩ := lookups_run (m := start work w) hw n hn
  -- the directory of this moment answers what the history holds
  have hgrants : ∀ w' : World, w'.lookups = m.world.lookups → ∀ p,
      (w'.resolveCall x (.user p)).value = x.config.grants history p := by
    intro w' hw' p
    show (x.identify w'.lookups none p).value = _
    rw [hw', hl]
    exact Executor.identify_after htenant p
  refine ⟨hconfig, fun mode c p body next hm => ?_, fun name c p body fin next hm hf => ?_,
    fun c p next hm => ?_, fun p i serial y hi hy => ?_, fun e next hm c => ?_,
    fun c k hr hc hu => ?_⟩
  · exact hgrants m.world rfl p ▸ call_opens hm
  · obtain ⟨hcall, hworld⟩ := step_firstPoll (x := x) hm hf
    exact hgrants (m.step x).world (congrArg World.lookups hworld) p ▸ call_opens hcall
  · exact hgrants m.world rfl p ▸ become_becomes hm
  · have hhas := Config.has_of_grants hi
    have hany : ∀ f : Identity → Bool, y.visible.any (fun t => f t.identity) = f i := by
      intro f
      rw [hy]
      rfl
    exact ⟨fun r => (congrArg (· = true) (hany (·.has r))).to_iff.trans (hhas r),
      (congrArg (· = true) (hany x.isAdministrator)).to_iff.trans (hhas x.config.adminRole)⟩
  · show (m.step x).world.context c = _
    rw [step, hm]
    rfl
  · rw [← run_succ']
    exact shows_again x work hr (n + 1) k (run_leads x work w hc 1).2 hu

/-- A user loses a role of the default tenant while they run, and is run again. -/
def demoted (tenant : Tenant) : Work :=
  .call .sync ⟨0, .user "ann"⟩
    (.act (.arrange (.directory (.remove (some tenant) "ann"))) fun _ => .done (.ok .null)) fun _ =>
  .call .async ⟨0, .user "ann"⟩ (.done (.ok .null)) .done

theorem granted_exactly_demoted :
    let acme : Tenant := ⟨"acme", by decide⟩
    let s := Settings.table [(Config.defaultTenantPath, "acme"), (Config.adminRolePath, "Boss")]
    let x := Executor.ofConfig { Config.default with adminRole := "Boss", defaultTenant := some acme }
    let past : List Directory.Edit := [.set (some acme) "ann" ["Boss"], .set none "ann" ["Reader"]]
    let w := World.start .empty 0 (.ofStores (Directory.empty.after past) .empty) false
    let run := fun n => ((start (demoted acme) w).run x n).world.context 0
    Executor.ofSettings s = .ok x ∧
      (run 1).visible = some ⟨0, "ann", .ofList ["Boss"], .user⟩ ∧
      (run 2).visible = some ⟨0, "ann", .ofList ["Boss"], .user⟩ ∧
      Look.isAdministrator.answer x (run 2) = true ∧
      (run 4).visible = some ⟨1, "ann", .ofList ["Reader"], .user⟩ ∧ (run 4).has "Boss" = false := by
  intro acme s x past w run
  have hx : Executor.ofSettings s = .ok x := by decide
  obtain ⟨-, hfirst, -, -, hhas, -, hkept⟩ :=
    granted_exactly hx (demoted acme) w past .empty rfl 0 (by decide)
  obtain ⟨-, hsecond, -, -, hlost, -, -⟩ :=
    granted_exactly hx (demoted acme) w past .empty rfl 3 (by decide)
  have h₁ : (run 1).visible = some ⟨0, "ann", .ofList ["Boss"], .user⟩ :=
    (hfirst _ _ _ _ _ rfl).2
  have h₂ : (run 2).visible = some ⟨0, "ann", .ofList ["Boss"], .user⟩ :=
    (hkept 0 1 (.new none) (by decide) (by decide) (by decide)).trans h₁
  have h₄ : (run 4).visible = some ⟨1, "ann", .ofList ["Reader"], .user⟩ :=
    (hsecond _ _ _ _ _ rfl).2
  refine ⟨hx, h₁, h₂, ?_, h₄, ?_⟩
  · exact (hhas "ann" _ 0 _ rfl h₂).2.2 (by decide)
  · exact Bool.eq_false_iff.2 fun h => absurd ((hlost "ann" _ 1 _ rfl h₄).1 "Boss" |>.1 h) (by decide)

end Machine
end Guise

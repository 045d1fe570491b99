import Guise.Session.Plan
import Guise.Settings.Source

/-! # Running a session

A session sets up one executor, its collaborators and a first context, and runs its steps.  Its
record is the journal and the identities of the tokens that were met.  A bound on the number of
machine steps is counted from the session's text: every step is carried out at most once. -/

namespace Guise.Session

/-- How the executor of a session comes about. -/
inductive Setup where
  | settings (source : SettingsSource)
  /-- A configuration in a document, and the default tenant of resolution apart from it. -/
  | config (document : Json) (tenant : Option String)

/-- Why a session cannot start. -/
inductive Refusal where
  | document
  | setup (cause : SetupError)

/-- The executor of a session, with the paths of the documents loaded for it. -/
def Setup.executor : Setup → Except Refusal Executor × List String
  | settings source =>
    let (made, loaded) := source.build
    match made with
    | .error e => (.error (.setup e), loaded)
    | .ok s =>
      match Executor.ofSettings s with
      | .ok x => (.ok x, loaded)
      | .error e => (.error (.setup e), loaded)
  | config document tenant =>
    match Config.ofJson? document with
    | none => (.error .document, [])
    | some c =>
      match tenant.map Tenant.ofText with
      | none => (.ok ⟨c, none⟩, [])
      | some (.ok t) => (.ok ⟨c, some t⟩, [])
      | some (.error e) => (.error (.setup e), [])

mutual

/-- A bound on the machine steps that a step takes. -/
def stepCost : Step → Nat
  | .run _ _ steps _ _ => 16 + stepsCost steps
  | .nest _ _ times steps _ _ => 16 + 4 * times + stepsCost steps
  | .future _ _ _ steps _ => 16 + stepsCost steps
  | .await _ _ steps _ _ => 16 + stepsCost steps
  | .thread _ _ steps _ => 16 + stepsCost steps
  | .act (.push _ _ _ times) => 16 + 3 * times
  | _ => 16

def stepsCost : List Step → Nat
  | [] => 1
  | s :: r => stepCost s + stepsCost r

end

end Session

/-- A session. -/
structure Session where
  users : List (Option Tenant × String × List String)
  names : List (String × String)
  setup : Session.Setup
  initial : Option Identity
  steps : List Session.Step

namespace Session

/-- What a session leaves behind. -/
structure Record where
  journal : List Entry
  identities : List Identity

/-- The collaborators at the start. -/
def lookups (s : Session) : Lookups :=
  .ofStores (Directory.empty.after (s.users.map fun u => .set u.1 u.2.1 u.2.2)) (.ofList s.names)

/-- The world at the start. -/
def world (s : Session) (spansOn : Bool) : World :=
  .start (.ofToken (s.initial.map (⟨0, ·⟩))) 1 s.lookups spansOn

/-- The machine at the start. -/
def machine (s : Session) (x : Executor) (w : World) : Machine :=
  .start (stepsWork x [] 0 s.steps (.ok .null) .done) w

/-- What is noted about the ending of the steps. -/
def endReport : Option Ending → Report
  | some (.error e) => .ending (.error e)
  | some (.panic text) => .ending (.panic text)
  | _ => .nothing

/-- The machine after the steps of a session. -/
def outcome (s : Session) (x : Executor) (spansOn : Bool) : Machine :=
  (s.machine x (s.world spansOn)).run x (stepsCost s.steps + 16)

/-- The record of a session. -/
def run (s : Session) (spansOn : Bool) : Except Refusal Record :=
  s.setup.executor.1.map fun x =>
    let m := s.outcome x spansOn
    let w := m.world.note "end" "end" (endReport m.ending?)
    ⟨w.journal, w.met.map (·.identity)⟩

/-- What a program that runs a session writes down: the loading of documents, also for a session
that cannot start, then the steps, and last the dropping of the futures that are left. -/
def journal (s : Session) (spansOn : Bool) : List Entry :=
  let (made, loaded) := s.setup.executor
  loaded.map (fun path => .told (.loadedDocument path) [] []) ++
    match made with
    | .ok x => (s.outcome x spansOn).dropFutures.world.journal
    | .error _ => []

end Session
end Guise

import Guise.Settings.Variable
import Guise.Settings.Document
import Guise.Files

/-! # Descriptions of settings

A description says where settings come from.  Making them real reads variables and files, in the
order of the description; the first part that cannot be made is the error, and the paths of the
documents loaded until then are told. -/

namespace Guise

/-- Where settings come from. -/
inductive SettingsSource where
  | table (entries : List (String × String))
  /-- Variables with a stem, set in the process's own environment when `shared`, or else read by
  their exact names. -/
  | environment (shared : Bool) (stem : String) (vars : List (String × String))
  | text (document : String)
  | value (document : Json)
  /-- The file at a path, among the files that there are when it is read. -/
  | file (path : String) (files : Files)
  | layered (layers : List SettingsSource)
  deriving Inhabited

namespace SettingsSource

mutual

/-- All variables that a description sets in one of the two environments. -/
def exported (shared : Bool) : SettingsSource → List (String × String)
  | environment here _ vars => if here = shared then vars else []
  | layered layers => layersExported shared layers
  | _ => []

def layersExported (shared : Bool) : List SettingsSource → List (String × String)
  | [] => []
  | s :: r => exported shared s ++ layersExported shared r

end

mutual

/-- The settings that a description stands for, with the paths of the documents loaded for them in
order. -/
def make (env : Bool → String → Option String) :
    SettingsSource → Except SetupError Settings × List String
  | table entries => (.ok (Settings.table entries), [])
  | environment shared stem _ => (.ok (Settings.environment stem (env shared)), [])
  | text document => (Settings.ofText document, [])
  | value document => (Settings.ofJson document, [])
  | file path files =>
    match files.read path with
    | .error fault => (.error (.badSource ("cannot read " ++ path ++ ": " ++ fault.message)), [])
    | .ok document => (Settings.ofText document, [path])
  | layered layers =>
    let r := makeLayers env layers
    (r.1.map Settings.layers, r.2)

def makeLayers (env : Bool → String → Option String) :
    List SettingsSource → Except SetupError (List Settings) × List String
  | [] => (.ok [], [])
  | s :: rest =>
    let r := make env s
    match r.1 with
    | .error e => (.error e, r.2)
    | .ok made =>
      let t := makeLayers env rest
      (t.1.map (made :: ·), r.2 ++ t.2)

end

/-- The settings of a description with the paths of the documents loaded. -/
def build (s : SettingsSource) : Except SetupError Settings × List String :=
  s.make fun shared name =>
    if shared then Settings.processVariable (s.exported true) name
    else Settings.lookupLast name (s.exported false)

/-- The number of layers, for people. -/
def debug? : SettingsSource → Option String
  | layered layers => some ("LayeredSettings \x7b layers: " ++ toString layers.length ++ " \x7d")
  | _ => none

end SettingsSource

namespace Settings

/-- A question to a source: a path, with or without a default. -/
inductive Query where
  | plain (path : String)
  | withDefault (path default : String)

/-- The answer to a question. -/
def answer (s : Settings) : Query → Option String
  | .plain path => s.get? path
  | .withDefault path default => some (s.getD path default)

end Settings
end Guise

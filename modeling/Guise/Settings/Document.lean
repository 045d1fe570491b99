import Guise.Settings.Basic
import Guise.Json.Reader
import Guise.Failure

/-! # Settings in a document

The parts of a path between slashes lead from the root of a document through its objects; empty
parts do not count.  A text, a number or a truth value at the end is the setting; anything else
there leaves the path undefined. -/

namespace Guise

namespace Path

/-- Cuts a text at its slashes. -/
def cut : List Char → List (List Char)
  | [] => [[]]
  | c :: r =>
    if c = '/' then [] :: cut r
    else match cut r with
      | [] => [[c]]
      | s :: ss => (c :: s) :: ss

/-- The parts of a path between slashes that are not empty. -/
def segments (path : String) : List String :=
  ((cut path.toList).filter fun s => !s.isEmpty).map String.ofList

end Path

namespace Json

/-- The value reached from a document by a list of keys. -/
def walk : List String → Json → Option Json
  | [], j => some j
  | k :: ks, j => (j.member? k).bind (walk ks)

/-- The text of a leaf. -/
def leaf? : Json → Option String
  | string s => some s
  | number n => some n.text
  | bool b => some (if b then "true" else "false")
  | _ => none

end Json

namespace Settings

/-- Settings read from a document. -/
def document (root : Json) : Settings :=
  source fun path => (root.walk (Path.segments path)).bind Json.leaf?

/-- Settings read from a document that must be an object. -/
def ofJson (root : Json) : Except SetupError Settings :=
  if root.isObject then .ok (document root)
  else .error (.badSource "settings document must be a JSON object")

/-- Settings read from the text of a document.  The error leaves out what the reader of documents adds after
these words, the mistake that it met and where. -/
def ofText (text : String) : Except SetupError Settings :=
  match Json.readDocument text with
  | some root => ofJson root
  | none => .error (.badSource "invalid settings JSON")

end Settings
end Guise

import Guise.Context
import Guise.Executor

/-! # The journal

What an observer writes down while work runs: each question to a collaborator, each notice with the
spans around it, and a note for each step, with its result and what every known context then shows.
Tokens and contexts are known by the numbers under which they were first met. -/

namespace Guise

/-- How a unit of work ends. -/
abbrev Ending := Outcome Failure Json

inductive Report where
  | nothing
  | flag (value : Bool)
  | count (n : Nat)
  | text (value : String)
  | token (number : Option Nat)
  | identity (value : Identity)
  | names (value : List String)
  | tenant (value : Option Tenant)
  | config (value : Config)
  | failure (cause : Failure)
  | ending (value : Ending)
  /-- The ending of nested calls, and what their context showed, and how deep, after each exit. -/
  | nested (value : Ending) (unwound : List (Option String × Nat))

/-- A line about a step: where it stands, what it is, its result, and for each known context the
number of the visible token and the depth. -/
structure Note where
  place : String
  verb : String
  report : Report
  state : List (Option Nat × Nat)

inductive Entry where
  | asked (question : Question)
  /-- A notice with the calls of the current span, the outermost first, and those of all spans that
  the thread is in, the latest first. -/
  | told (notice : Notice) (callers entered : List Caller)
  | note (note : Note)

end Guise

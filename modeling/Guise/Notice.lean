import Guise.Tenant
import Guise.Identity
import Guise.Text.Quoted

/-! # Notices

What a program tells its log while it resolves identities, installs them and takes them back.  Each
notice has a severity, the part of the program that it comes from, a message and fields.  A span
stands for one call in progress and for the calls around the place where it was made. -/

namespace Guise

/-- How much a notice matters, the gravest first. -/
inductive Severity where
  | error
  | warn
  | info
  | debug
  | trace
  deriving DecidableEq, Repr

namespace Severity

def text : Severity → String
  | error => "ERROR"
  | warn => "WARN"
  | info => "INFO"
  | debug => "DEBUG"
  | trace => "TRACE"

/-- The place in the order from the gravest on. -/
def rank : Severity → Nat
  | error => 1
  | warn => 2
  | info => 3
  | debug => 4
  | trace => 5

end Severity

/-- The value of a field: a number, a text as data, or a text as it is meant to be shown. -/
inductive FieldValue where
  | count (n : Nat)
  | text (s : String)
  | shown (s : String)
  deriving DecidableEq, Repr

/-- Something that the program tells its log. -/
inductive Notice where
  | loadedDocument (path : String)
  | unknownPrincipal (principal : String)
  | resolvedAuthorities (principal : String) (tenant : Option Tenant) (names : List String)
  | resolvedSystem (key principal : String)
  | resolutionFailed (cause : ResolutionError)
  | installed (depth : Nat)
  | restored (principal : Option String) (depth : Nat)
  | unwinding
  | frameGone (number : Nat)
  | became (principal : String)
  deriving DecidableEq

def frameText (number : Nat) : String := "FrameId(" ++ toString number ++ ")"

namespace Notice

/-- A thing gone wrong is a warning, an identity that stays is information, and all else is for
debugging. -/
def severity : Notice → Severity
  | resolutionFailed _ | unwinding | frameGone _ => .warn
  | became _ => .info
  | _ => .debug

/-- The part of the program that spans and most notices come from. -/
def executorPart : String := "runas_auth::executor"

def part : Notice → String
  | loadedDocument _ => "runas_core::settings"
  | unknownPrincipal _ | resolvedAuthorities .. => "runas_auth::resolver"
  | resolvedSystem .. => "runas_auth::factory"
  | _ => executorPart

def message : Notice → String
  | loadedDocument _ => "loaded settings document"
  | unknownPrincipal _ => "unknown principal; resolving to no authorities"
  | resolvedAuthorities .. => "resolved authorities"
  | resolvedSystem .. => "resolved system principal"
  | resolutionFailed _ => "identity resolution failed; context untouched"
  | installed _ => "installed identity"
  | restored .. => "restored identity"
  | unwinding => "work panicked; restoring security context"
  | frameGone _ => "frame already removed from security context"
  | became _ => "became user"

/-- The fields of a notice in order; an optional one that is absent is left out. -/
def fields : Notice → List (String × FieldValue)
  | loadedDocument path => [("file", .shown path)]
  | unknownPrincipal principal => [("principal", .text principal)]
  | resolvedAuthorities principal tenant names =>
    ("principal", .text principal) :: (tenant.map fun t => ("tenant", .text t.text)).toList ++
      [("authorities", .shown (Text.quotedList names))]
  | resolvedSystem key principal => [("key", .shown key), ("principal", .shown principal)]
  | resolutionFailed cause => [("error", .shown cause.message)]
  | installed depth => [("depth", .count depth)]
  | restored principal depth =>
    (principal.map fun p => ("restored", .text p)).toList ++ [("depth", .count depth)]
  | unwinding => []
  | frameGone number => [("frame", .shown (frameText number))]
  | became principal => [("principal", .text principal)]

/-- The names of the fields that notices of this kind can have, with that of the message. -/
def fieldNames : Notice → List String
  | loadedDocument _ => ["message", "file"]
  | unknownPrincipal _ | became _ => ["message", "principal"]
  | resolvedAuthorities .. => ["message", "principal", "tenant", "authorities"]
  | resolvedSystem .. => ["message", "key", "principal"]
  | resolutionFailed _ => ["message", "error"]
  | installed _ => ["message", "depth"]
  | restored .. => ["message", "restored", "depth"]
  | unwinding => ["message"]
  | frameGone _ => ["message", "frame"]

end Notice

/-- What a span says about the call that it stands for. -/
structure Caller where
  kind : Kind
  principal : String
  deriving DecidableEq

namespace Caller

def spanName : String := "run_as"

def fieldNames : List String := ["invocation", "kind", "principal"]

/-- The text of a field of a span.  The number of the invocation is never the same; it looks like
this one. -/
def field? (c : Caller) (name : String) : Option String :=
  if name = "invocation" then some "01900000-0000-7000-8000-000000000000"
  else if name = "kind" then some c.kind.text
  else if name = "principal" then some c.principal
  else none

end Caller

/-- A span: its call, then the calls around the place where it was made, the nearest first. -/
abbrev Span := List Caller

end Guise

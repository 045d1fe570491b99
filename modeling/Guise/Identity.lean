import Guise.Authorities

/-! # Identities

An identity is a principal with the authorities granted to it.  Its kind says which sort of
principal it stands for; it follows from how the identity was made and decides nothing. -/

namespace Guise

/-- Which sort of principal an identity stands for. -/
inductive Kind where
  /-- The configured principal of callers that nobody has authenticated. -/
  | anonymous
  /-- The principal of the platform's own work. -/
  | system
  | user
  deriving DecidableEq, Repr

namespace Kind

def text : Kind → String
  | anonymous => "anonymous"
  | system => "system"
  | user => "user"

def ofText? (s : String) : Option Kind :=
  if s = "anonymous" then some anonymous
  else if s = "system" then some system
  else if s = "user" then some user
  else none

/-- A kind is its text in a document, or an object with that text as its only key and null under
it. -/
def ofJson? : Json → Option Kind
  | .string s => ofText? s
  | .object [(s, .null)] => ofText? s
  | _ => none

end Kind

/-- A principal with its authorities. -/
structure Identity where
  principal : String
  authorities : Authorities
  kind : Kind
  deriving DecidableEq

namespace Identity

def has (i : Identity) (authority : String) : Bool := i.authorities.contains authority

/-- The kind and the principal, for people. -/
def text (i : Identity) : String := i.kind.text ++ ":" ++ i.principal

/-- An identity is written with its three fields in order. -/
def toJson (i : Identity) : Json :=
  .object [("principal", .string i.principal), ("authorities", i.authorities.toJson),
    ("kind", .string i.kind.text)]

/-- An identity is a record of its three fields in a document. -/
def ofJson? (j : Json) : Option Identity := do
  match ← j.fields? ["principal", "authorities", "kind"] with
  | [some p, some a, some k] =>
    let principal ← p.string?
    let authorities ← Authorities.ofJson? a
    let kind ← Kind.ofJson? k
    pure ⟨principal, authorities, kind⟩
  | _ => none

end Identity
end Guise

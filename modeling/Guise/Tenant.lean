import Guise.Failure
import Guise.Text.Ascending
import Guise.Text.Blank
import Guise.Json.Reader
import Guise.Json.Writer

/-! # Tenants

A tenant is named by a text that is not blank.  The text is kept as it was given; it is only ever
handed on to a role directory to qualify a question. -/

namespace Guise

structure Tenant where
  text : String
  not_blank : Text.isBlank text = false
  deriving DecidableEq

namespace Tenant

/-- The tenant named by a text; a blank text names none. -/
def ofText (s : String) : Except SetupError Tenant :=
  if h : Text.isBlank s = false then .ok ⟨s, h⟩
  else .error (.badId "TenantId: must not be blank")

def ofText? (s : String) : Option Tenant := (ofText s).toOption

def toJson (t : Tenant) : Json := .string t.text

def ofJson? (j : Json) : Option Tenant := j.string?.bind ofText?

def ofDocument? (document : String) : Option Tenant := (Json.read document).bind ofJson?

/-- The texts that name tenants, ascending and each once, and how many name none. -/
def sorted (l : List String) : List String × Nat :=
  let accepted := l.filterMap ofText?
  (accepted.foldl (fun s t => Text.place t.text s) [], l.length - accepted.length)

end Tenant
end Guise

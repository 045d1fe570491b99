import Guise.Table
import Guise.Tenant

/-! # The role directory

Which roles a user holds.  An entry belongs to one tenant or to none; an entry of the tenant a
question names hides the one without tenant, even when it holds no roles, and is gone for good once
removed.  Roles are kept as they were given, in order and with repetitions. -/

namespace Guise

structure Directory where
  entries : Table (Option Tenant × String) (List String)

namespace Directory

/-- A directory that knows nobody. -/
def empty : Directory := ⟨[]⟩

/-- The roles of the entry for a tenant and a user, if there is one. -/
def entry? (d : Directory) (tenant : Option Tenant) (user : String) : Option (List String) :=
  d.entries.find? (tenant, user)

/-- The directory with an entry, in place of any other for the same tenant and user. -/
def set (d : Directory) (tenant : Option Tenant) (user : String) (roles : List String) :
    Directory :=
  ⟨d.entries.put (tenant, user) roles⟩

def remove (d : Directory) (tenant : Option Tenant) (user : String) : Directory :=
  ⟨d.entries.erase (tenant, user)⟩

/-- The roles of a user: those of the tenant's entry, else those of the entry without tenant. -/
def roles (d : Directory) (tenant : Option Tenant) (user : String) :
    Except LookupError (List String) :=
  match (tenant.bind fun t => d.entry? (some t) user).or (d.entry? none user) with
  | some roles => .ok roles
  | none => .error (.unknownUser user)

inductive Edit where
  | set (tenant : Option Tenant) (user : String) (roles : List String)
  | remove (tenant : Option Tenant) (user : String)

def Edit.apply (d : Directory) : Edit → Directory
  | set tenant user roles => d.set tenant user roles
  | remove tenant user => d.remove tenant user

/-- The directory after a history of changes. -/
def after (d : Directory) (history : List Edit) : Directory := history.foldl Edit.apply d

/-- A change of a directory, or a question to it. -/
inductive Step where
  | edit (e : Edit)
  | ask (tenant : Option Tenant) (user : String)

/-- The answers to steps in order; a change has none. -/
def answers (d : Directory) : List Step → List (Option (Except LookupError (List String)))
  | [] => []
  | .edit e :: r => none :: answers (e.apply d) r
  | .ask tenant user :: r => some (d.roles tenant user) :: answers d r

end Directory
end Guise

import Guise.Config
import Guise.Directory
import Guise.Registry
import Guise.Notice

/-! # Resolving identities

An executor turns a principal into an identity by asking its collaborators: a role directory, and a
registry for the principal of the system.  The anonymous principal is never looked up on behalf of a
user; the system principal always is.  What was asked and told meanwhile comes with the result, in
order. -/

namespace Guise

inductive Question where
  | roles (tenant : Option Tenant) (user : String)
  | name (key : String)
  deriving DecidableEq

/-- Something that happens while an identity is resolved. -/
inductive Sign where
  | asked (question : Question)
  | told (notice : Notice)
  deriving DecidableEq

/-- A result with what happened on the way to it. -/
structure Traced (α : Type) where
  value : α
  signs : List Sign

/-- The answer of a role directory. -/
abbrev RolesAnswer := Outcome LookupError (List String)

/-- The answer of a name registry; it has no errors. -/
abbrev NameAnswer := Outcome Empty (Option String)

/-- The collaborators of an executor: what they hold, and the answers that a disturbance puts in
place of it.  With disturbances for every question the collaborators are arbitrary. -/
structure Lookups where
  directory : Directory
  registry : Registry
  disturbedRoles : Option Tenant → String → Option RolesAnswer
  disturbedName : String → Option NameAnswer

namespace Lookups

/-- Undisturbed collaborators. -/
def ofStores (d : Directory) (r : Registry) : Lookups := ⟨d, r, fun _ _ => none, fun _ => none⟩

def roles (l : Lookups) (tenant : Option Tenant) (user : String) : RolesAnswer :=
  match l.disturbedRoles tenant user with
  | some answer => answer
  | none =>
    match l.directory.roles tenant user with
    | .ok roles => .ok roles
    | .error e => .error e

def name (l : Lookups) (key : String) : NameAnswer :=
  match l.disturbedName key with
  | some answer => answer
  | none => .ok (l.registry.name? key)

inductive Edit where
  | directory (edit : Directory.Edit)
  | registry (edit : Registry.Edit)
  /-- From now on every question for the roles of a user has one answer. -/
  | disturb (user : String) (answer : RolesAnswer)
  | settle (user : String)

def Edit.apply (l : Lookups) : Edit → Lookups
  | directory edit => { l with directory := edit.apply l.directory }
  | registry edit => { l with registry := edit.apply l.registry }
  | disturb user answer =>
    { l with disturbedRoles := fun t u => if u = user then some answer else l.disturbedRoles t u }
  | settle user =>
    { l with disturbedRoles := fun t u => if u = user then none else l.disturbedRoles t u }

end Lookups

/-- The configured names, and the tenant of a question that names none. -/
structure Executor where
  config : Config
  defaultTenant : Option Tenant
  deriving DecidableEq

namespace Executor

/-- The executor of a configuration, whose default tenant becomes that of every question. -/
def ofConfig (c : Config) : Executor := ⟨c, c.defaultTenant⟩

def ofSettings (s : Settings) : Except SetupError Executor := do
  let c ← Config.ofSettings s
  pure (ofConfig c)

/-- The identity of callers nobody has authenticated. -/
def anonymous (x : Executor) : Identity :=
  ⟨x.config.anonymousUser, Authorities.single x.config.anonymousRole, .anonymous⟩

def isAdministrator (x : Executor) (i : Identity) : Bool := i.has x.config.adminRole

/-- The authorities of a principal under a tenant, or the default one.  An unknown principal has
none; a list with a blank name counts as no answer. -/
def resolve (x : Executor) (l : Lookups) (tenant : Option Tenant) (principal : String) :
    Traced (Outcome ResolutionError Authorities) :=
  let tenant := tenant.or x.defaultTenant
  let asked := Sign.asked (.roles tenant principal)
  match l.roles tenant principal with
  | .ok roles =>
    if roles.any Text.isBlank then ⟨.error (.malformed principal "blank role name"), [asked]⟩
    else
      let found := Authorities.ofList roles
      ⟨.ok found, [asked, .told (.resolvedAuthorities principal tenant found.names)]⟩
  | .error (.unknownUser _) => ⟨.ok .empty, [asked, .told (.unknownPrincipal principal)]⟩
  | .error (.unavailable reason) => ⟨.error (.unavailable principal reason), [asked]⟩
  | .error (.malformed reason) => ⟨.error (.malformed principal reason), [asked]⟩
  | .panic text => ⟨.panic text, [asked]⟩

/-- The identity of a user under a tenant; the anonymous principal is not looked up. -/
def identify (x : Executor) (l : Lookups) (tenant : Option Tenant) (principal : String) :
    Traced (Outcome ResolutionError Identity) :=
  if principal = x.config.anonymousUser then ⟨.ok x.anonymous, []⟩
  else
    let r := x.resolve l tenant principal
    ⟨r.value.andThen fun found => .ok ⟨principal, found, .user⟩, r.signs⟩

/-- The principal of the system, from the registry. -/
def systemPrincipal (x : Executor) (l : Lookups) : Traced (Outcome ResolutionError String) :=
  let key := x.config.systemKey
  let asked := Sign.asked (.name key)
  match l.name key with
  | .ok (some principal) => ⟨.ok principal, [asked, .told (.resolvedSystem key principal)]⟩
  | .ok none => ⟨.error (.noSystemPrincipal key), [asked]⟩
  | .panic text => ⟨.panic text, [asked]⟩

/-- The identity of the system; its principal is always looked up, under the default tenant. -/
def system (x : Executor) (l : Lookups) : Traced (Outcome ResolutionError Identity) :=
  let p := x.systemPrincipal l
  match p.value with
  | .ok principal =>
    let r := x.resolve l none principal
    ⟨r.value.andThen fun found => .ok ⟨principal, found, .system⟩, p.signs ++ r.signs⟩
  | .error e => ⟨.error e, p.signs⟩
  | .panic text => ⟨.panic text, p.signs⟩

/-- The executor, for people. -/
def debug (x : Executor) : String :=
  "ImpersonationExecutor \x7b factory: AuthenticationFactory \x7b resolver: " ++
  "AuthorityResolver \x7b default_tenant: " ++ Config.debugTenant x.defaultTenant ++
  ", .. \x7d, config: " ++ x.config.debug ++ ", .. \x7d \x7d"

end Executor
end Guise

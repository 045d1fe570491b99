import Guise.Tenant
import Guise.Settings.Basic
import Guise.Text.Quoted

/-! # Configuration

The names that an executor needs and does not hard-code.  Read from settings, each is checked: none
may be blank, and the first that is blank, in the order in which they are read, is the error.  Read
from a document, only the tenant is checked. -/

namespace Guise

/-- The names that an executor works with. -/
structure Config where
  /-- The principal that stands for callers nobody has authenticated. -/
  anonymousUser : String
  /-- The one authority of the anonymous identity. -/
  anonymousRole : String
  /-- The key under which the registry holds the system principal. -/
  systemKey : String
  /-- The authority that marks an administrator. -/
  adminRole : String
  /-- The tenant of a question that names none. -/
  defaultTenant : Option Tenant
  deriving DecidableEq

namespace Config

/-- The configuration of a program without settings. -/
def default : Config where
  anonymousUser := "anonymousUser"
  anonymousRole := "Anonymous"
  systemKey := "singleTenantAdminUserName"
  adminRole := "Administrator"
  defaultTenant := none

/-! ### From settings -/

def anonymousUserPath : String := "anonymous-authentication/anonymous-user"
def anonymousRolePath : String := "anonymous-authentication/anonymous-role"
def systemKeyPath : String := "security/admin-user-name-key"
def adminRolePath : String := "acl-voter/admin-role"
def defaultTenantPath : String := "security/default-tenant"

/-- The text at a path or its default, which must not be blank. -/
def required (s : Settings) (path fallback : String) : Except SetupError String :=
  let value := s.getD path fallback
  if Text.isBlank value then .error (.badSetting path "must not be blank") else .ok value

/-- The tenant at the path of the default tenant, if that path is defined. -/
def tenantSetting (s : Settings) : Except SetupError (Option Tenant) :=
  match s.get? defaultTenantPath with
  | none => .ok none
  | some text =>
    match Tenant.ofText text with
    | .ok t => .ok (some t)
    | .error e => .error (.badSetting defaultTenantPath e.message)

def ofSettings (s : Settings) : Except SetupError Config := do
  let defaultTenant ← tenantSetting s
  let anonymousUser ← required s anonymousUserPath default.anonymousUser
  let anonymousRole ← required s anonymousRolePath default.anonymousRole
  let systemKey ← required s systemKeyPath default.systemKey
  let adminRole ← required s adminRolePath default.adminRole
  pure ⟨anonymousUser, anonymousRole, systemKey, adminRole, defaultTenant⟩

/-! ### In documents -/

/-- A configuration is written with all five fields, the tenant as null when there is none. -/
def toJson (c : Config) : Json :=
  .object [("anonymous_user", .string c.anonymousUser), ("anonymous_role", .string c.anonymousRole),
    ("admin_user_name_key", .string c.systemKey), ("admin_role", .string c.adminRole),
    ("default_tenant", (c.defaultTenant.map Tenant.toJson).getD .null)]

/-- The tenant of an optional field: absent, null, or a text that names one. -/
def tenantField : Option Json → Option (Option Tenant)
  | none => some none
  | some .null => some none
  | some j => (Tenant.ofJson? j).map some

/-- A configuration is a record of its five fields in a document; the last may be absent. -/
def ofJson? (j : Json) : Option Config := do
  match ← j.fields? ["anonymous_user", "anonymous_role", "admin_user_name_key", "admin_role",
      "default_tenant"] with
  | [some u, some r, some k, some a, t] =>
    let anonymousUser ← u.string?
    let anonymousRole ← r.string?
    let systemKey ← k.string?
    let adminRole ← a.string?
    let defaultTenant ← tenantField t
    pure ⟨anonymousUser, anonymousRole, systemKey, adminRole, defaultTenant⟩
  | _ => none

/-! ### For people -/

/-- An optional tenant. -/
def debugTenant : Option Tenant → String
  | none => "None"
  | some t => "Some(TenantId(" ++ Text.quoted t.text ++ "))"

/-- A configuration, with its texts quoted. -/
def debug (c : Config) : String :=
  "SecurityConfig \x7b anonymous_user: " ++ Text.quoted c.anonymousUser ++
  ", anonymous_role: " ++ Text.quoted c.anonymousRole ++
  ", admin_user_name_key: " ++ Text.quoted c.systemKey ++
  ", admin_role: " ++ Text.quoted c.adminRole ++
  ", default_tenant: " ++ debugTenant c.defaultTenant ++ " \x7d"

end Config
end Guise

import Guise.Machine

/-! # Steps of a session

A session is written as a list of steps.  Some steps hold steps of their own: what runs inside a
call, a future or a thread. -/

namespace Guise.Session

/-- An identity named in a step: a value, or the very token met under a number. -/
inductive Named where
  | value (i : Identity)
  | met (number : Nat)

/-- A context named in a step: by number, or the one bound to the running thread. -/
inductive Where where
  | number (n : Nat)
  | bound

/-- Whom a step runs its work as. -/
inductive Whom where
  | system
  | anonymous
  | user (principal : String)
  | identity (n : Named)

/-- A step that is done at once. -/
inductive Action where
  | newContext (identity : Option Named)
  /-- Makes a new token of an identity, also of that of a token met before. -/
  | token (identity : Named)
  | get (c : Where)
  | set (c : Where) (identity : Named)
  | clear (c : Where)
  | replace (c : Where) (identity : Option Named)
  | depth (c : Where)
  | isAuthenticated (c : Where)
  | principal (c : Where)
  | hasAuthority (c : Where) (name : String)
  | isAdministrator (c : Where)
  /-- Pushes one token a number of times; the label stands for the last frame. -/
  | push (c : Where) (label : String) (identity : Option Named) (times : Nat)
  | pop (c : Where) (label : String)
  /-- Whether two labels stand for the same, be it a number or nothing. -/
  | sameFrame (label other : String)
  | boundContext
  | bindContext (c : Where)
  | unbindContext
  | isBound
  | setRoles (tenant : Option Tenant) (user : String) (roles : List String)
  | removeUser (tenant : Option Tenant) (user : String)
  | register (key name : String)
  | unregister (key : String)
  | fail (user : String) (answer : RolesAnswer)
  | heal (user : String)
  | create (tenant : Option Tenant) (principal : String)
  | resolve (tenant : Option Tenant) (principal : String)
  | anonymousIdentity
  | systemIdentity
  | systemPrincipal
  | defaultTenant
  | config
  | identityIsAdministrator (identity : Named)
  | debug
  | become (c : Where) (principal : String)

/-- The word for an action. -/
def Action.verb : Action → String
  | newContext _ => "new_context"
  | token _ => "token"
  | get _ => "get"
  | set .. => "set"
  | clear _ => "clear"
  | replace .. => "replace"
  | depth _ => "depth"
  | isAuthenticated _ => "is_authenticated"
  | principal _ => "principal"
  | hasAuthority .. => "has_authority"
  | isAdministrator _ => "is_administrator"
  | push .. => "push"
  | pop .. => "pop"
  | sameFrame .. => "same_frame"
  | boundContext => "holder_context"
  | bindContext _ => "holder_set"
  | unbindContext => "holder_clear"
  | isBound => "holder_is_bound"
  | setRoles .. => "set_roles"
  | removeUser .. => "remove_user"
  | register .. => "register"
  | unregister _ => "unregister"
  | fail .. => "fail"
  | heal _ => "heal"
  | create .. => "create"
  | resolve .. => "resolve"
  | anonymousIdentity => "anonymous_identity"
  | systemIdentity => "system_identity"
  | systemPrincipal => "system_principal"
  | defaultTenant => "default_tenant"
  | config => "config"
  | identityIsAdministrator _ => "identity_is_administrator"
  | debug => "debug"
  | become .. => "become"

/-- What runs inside a call or a thread ends in this way after its steps. -/
abbrev End := Ending

/-- What a step does about the ending of its call: whether an error ends the work around it too, and
whether a panic stops here. -/
structure Handling where
  propagates : Bool
  catches : Bool

/-- A step of a session. -/
inductive Step where
  | act (a : Action)
  | run (c : Where) (whom : Whom) (steps : List Step) (last : End) (h : Handling)
  /-- Nested calls of one kind, so many deep, around one body. -/
  | nest (c : Where) (whom : Whom) (times : Nat) (steps : List Step) (last : End) (h : Handling)
  | future (name : String) (c : Where) (whom : Whom) (steps : List Step) (last : End)
  | yield
  | await (c : Where) (whom : Whom) (steps : List Step) (last : End) (propagates : Bool)
  | poll (name : String)
  | drop (name : String)
  | thread (name : String) (inherits : Bool) (steps : List Step) (last : End)
  | pause
  | resume (name : String)
  deriving Inhabited

end Guise.Session

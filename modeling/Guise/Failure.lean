/-! # Causes of failure

What can go wrong, as causes, each with its one wording.  A `SetupError` stops a program before it
starts; a `LookupError` is the answer of a role directory; a `ResolutionError` is the failure to
turn a principal into an identity; a `Failure` ends a unit of work. -/

namespace Guise

/-- A bad identifier or a bad setting. -/
inductive SetupError where
  | badId (text : String)
  | badSetting (path reason : String)
  | badSource (text : String)
  deriving DecidableEq, Repr

def SetupError.message : SetupError → String
  | badId text => "invalid identifier: " ++ text
  | badSetting path reason => "invalid setting '" ++ path ++ "': " ++ reason
  | badSource text => "settings source error: " ++ text

/-- Why a role directory has no roles to give.  Not to know a user is no failure of resolution. -/
inductive LookupError where
  | unknownUser (user : String)
  | unavailable (reason : String)
  | malformed (reason : String)
  deriving DecidableEq, Repr

def LookupError.message : LookupError → String
  | unknownUser user => "unknown user '" ++ user ++ "'"
  | unavailable reason => "role lookup unavailable: " ++ reason
  | malformed reason => "malformed role lookup response: " ++ reason

/-- Why a principal has no identity. -/
inductive ResolutionError where
  | unavailable (principal reason : String)
  | malformed (principal reason : String)
  | noSystemPrincipal (key : String)
  deriving DecidableEq, Repr

def ResolutionError.message : ResolutionError → String
  | unavailable principal reason =>
    "cannot resolve authorities for '" ++ principal ++ "': " ++ reason
  | malformed principal reason => "malformed authorities for '" ++ principal ++ "': " ++ reason
  | noSystemPrincipal key => "no system principal registered under '" ++ key ++ "'"

/-- Why a unit of work failed: by its own account, or because an identity could not be resolved. -/
inductive Failure where
  | work (text : String)
  | resolution (cause : ResolutionError)
  deriving DecidableEq, Repr

/-- The wording of a failure; that of work is the work's own. -/
def Failure.message : Failure → String
  | work text => text
  | resolution cause => cause.message

/-- How something ends: with a value, with an error, or by panicking. -/
inductive Outcome (ε α : Type) where
  | ok (value : α)
  | error (cause : ε)
  | panic (text : String)
  deriving DecidableEq, Repr

namespace Outcome

def isPanic {ε α : Type} : Outcome ε α → Bool
  | panic _ => true
  | _ => false

/-- Goes on with the value; an error and a panic stay as they are. -/
def andThen {ε α β : Type} (o : Outcome ε α) (f : α → Outcome ε β) : Outcome ε β :=
  match o with
  | ok a => f a
  | error e => error e
  | panic t => panic t

end Outcome
end Guise

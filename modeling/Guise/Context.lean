import Guise.Identity

/-! # Contexts

A context shows at most one identity.  It has a base, and above it a frame for each call in
progress; the slot of the topmost frame, or the base when there is none, is what shows and what a
write changes.  A frame is known by its number; numbers count up and are never used again, so a
frame can be removed from wherever it stands without touching another.

A number is a natural number here.  A counter of 64 bits gives the same ones as long as a context has had
fewer than `2 ^ 64` pushes; the next one would get the number 0 again. -/

namespace Guise

/-- An identity as an object: two tokens are the same only if they have the same serial number. -/
structure Token where
  serial : Nat
  identity : Identity
  deriving DecidableEq

/-- A slot above the base, held by one call or by whoever pushed it. -/
structure Frame where
  /-- The count of the pushes before this one. -/
  number : Nat
  slot : Option Token
  deriving DecidableEq

/-- The cell that holds the visible identity.  The frames stand with the topmost first. -/
structure Context where
  base : Option Token
  frames : List Frame
  /-- The number of the next frame. -/
  next : Nat
  deriving DecidableEq

namespace Context

/-- A context that shows nothing. -/
def empty : Context := ⟨none, [], 0⟩

/-- A context that shows a token and has no frame. -/
def ofToken (t : Option Token) : Context := { empty with base := t }

/-- What the context shows. -/
def visible (c : Context) : Option Token :=
  match c.frames with
  | [] => c.base
  | f :: _ => f.slot

/-- Puts a value into the slot that shows. -/
def put (c : Context) (t : Option Token) : Context :=
  match c.frames with
  | [] => { c with base := t }
  | f :: r => { c with frames := { f with slot := t } :: r }

/-- Puts a value into the slot that shows and gives what was there. -/
def replace (c : Context) (t : Option Token) : Option Token × Context := (c.visible, c.put t)

/-- Adds a frame on top and gives its number. -/
def push (c : Context) (t : Option Token) : Nat × Context :=
  (c.next, { c with frames := ⟨c.next, t⟩ :: c.frames, next := c.next + 1 })

/-- Removes the topmost frame with a number; tells whether there was one. -/
def pop (c : Context) (number : Nat) : Bool × Context :=
  if c.frames.any (·.number == number) then
    (true, { c with frames := c.frames.eraseP (·.number == number) })
  else (false, c)

def depth (c : Context) : Nat := c.frames.length

def isAuthenticated (c : Context) : Bool := c.visible.isSome

def principal (c : Context) : Option String := c.visible.map (·.identity.principal)

/-- Whether the identity that shows has an authority; when none shows, nobody has any. -/
def has (c : Context) (authority : String) : Bool := c.visible.any (·.identity.has authority)

end Context
end Guise

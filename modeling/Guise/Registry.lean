import Guise.Table

/-! # The name registry

A registry holds the principal behind each well-known key. -/

namespace Guise

structure Registry where
  entries : Table String String

namespace Registry

def empty : Registry := ⟨[]⟩

def name? (r : Registry) (key : String) : Option String := r.entries.find? key

/-- The registry with a principal behind a key, in place of any other. -/
def register (r : Registry) (key name : String) : Registry := ⟨r.entries.put key name⟩

def unregister (r : Registry) (key : String) : Registry := ⟨r.entries.erase key⟩

inductive Edit where
  | register (key name : String)
  | unregister (key : String)

def Edit.apply (r : Registry) : Edit → Registry
  | register key name => r.register key name
  | unregister key => r.unregister key

/-- The registry after a history of changes. -/
def after (r : Registry) (history : List Edit) : Registry := history.foldl Edit.apply r

/-- A change of a registry, or a question to it. -/
inductive Step where
  | edit (e : Edit)
  | ask (key : String)

/-- What a step answers: the name of a key asked for or taken away. -/
def answer (r : Registry) : Step → Option String
  | .edit (.register ..) => none
  | .edit (.unregister key) => r.name? key
  | .ask key => r.name? key

/-- The answers to steps in order. -/
def answers (r : Registry) : List Step → List (Option String)
  | [] => []
  | .edit e :: rest => r.answer (.edit e) :: answers (e.apply r) rest
  | .ask key :: rest => r.answer (.ask key) :: answers r rest

/-- The registry that a list of pairs fills. -/
def ofList (l : List (String × String)) : Registry :=
  empty.after (l.map fun e => .register e.1 e.2)

end Registry
end Guise

import Guise.Json.Reader
import Guise.Json.Writer
import Guise.Table
import Guise.Text.Ascending

/-! # Sets of authorities

An authority is a name that means nothing at this layer.  A set of them is the list of its names in
strictly ascending order of code points, so two sets with the same members are the same list. -/

namespace Guise

/-- A set of authority names, kept strictly ascending. -/
structure Authorities where
  names : List String
  ascending : Text.Ascending names
  deriving DecidableEq

namespace Authorities

def empty : Authorities := ⟨[], .nil⟩

/-- The set with one more name; a name that is in it changes nothing. -/
def insert (s : Authorities) (n : String) : Authorities :=
  ⟨Text.place n s.names, s.ascending.place⟩

def contains (s : Authorities) (n : String) : Bool := s.names.contains n

def size (s : Authorities) : Nat := s.names.length

def isEmpty (s : Authorities) : Bool := s.names.isEmpty

/-- The set of the names of a list; neither order nor repetition matters. -/
def ofList (l : List String) : Authorities := l.foldl insert empty

def single (n : String) : Authorities := empty.insert n

/-- A set collected from a list has the names of the list and no other. -/
theorem mem_ofList {l : List String} {n : String} : n ∈ (ofList l).names ↔ n ∈ l := by
  suffices h : ∀ s : Authorities, n ∈ (l.foldl insert s).names ↔ n ∈ s.names ∨ n ∈ l by
    simpa [ofList, empty] using h empty
  induction l with
  | nil => simp
  | cons a r ih =>
    intro s
    rw [List.foldl_cons, ih, List.mem_cons, ← or_assoc]
    refine or_congr_left ?_
    show n ∈ Text.place a s.names ↔ _
    rw [Text.mem_place, or_comm]

theorem contains_iff {s : Authorities} {n : String} : s.contains n = true ↔ n ∈ s.names :=
  List.contains_iff_mem

/-- A set is written as the array of its names in order. -/
def toJson (s : Authorities) : Json := .array (s.names.map .string)

/-- A set is an array of texts in a document, in any order and with any repetitions. -/
def ofJson? (j : Json) : Option Authorities := j.strings?.map ofList

def ofDocument? (document : String) : Option Authorities := (Json.read document).bind ofJson?

inductive Edit where
  | clear
  | collect (names : List String)
  | single (name : String)
  | insert (name : String)
  | read (document : String)

/-- What a step on sets reports: nothing, a truth value, or that a document was refused. -/
inductive Report where
  | nothing
  | flag (value : Bool)
  | refused
  deriving DecidableEq, Repr

/-- The set after a change, and whether an inserted name was new. -/
def Edit.apply (s : Authorities) : Edit → Authorities × Report
  | clear => (empty, .nothing)
  | collect names => (ofList names, .nothing)
  | single name => (Authorities.single name, .nothing)
  | insert name => (s.insert name, .flag !(s.contains name))
  | read document =>
    match ofDocument? document with
    | some t => (t, .nothing)
    | none => (s, .refused)

/-! ### Named sets -/

/-- Sets under names; a name that was never used stands for the empty set. -/
abbrev Slots := Table String Authorities

/-- The set under a name. -/
def Slots.get (t : Slots) (name : String) : Authorities := (t.find? name).getD empty

/-- A step on a named set: a change, or a question about it. -/
inductive Step where
  | edit (e : Edit)
  | contains (name : String)
  | equals (other : String)

/-- The named sets after a step on one of them, and its report. -/
def Step.apply (t : Slots) (slot : String) : Step → Slots × Report
  | edit e => let r := e.apply (t.get slot); (t.put slot r.1, r.2)
  | contains name => (t, .flag ((t.get slot).contains name))
  | equals other => (t, .flag (t.get slot == t.get other))

/-- The reports of steps on named sets, each with the set after it. -/
def runSteps (t : Slots) : List (String × Step) → List (Report × Authorities)
  | [] => []
  | (slot, s) :: r =>
    let (t, report) := s.apply t slot
    (report, t.get slot) :: runSteps t r

end Authorities
end Guise

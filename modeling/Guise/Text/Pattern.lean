import Guise.Text.Alphanumeric
import Guise.Text.Blank

/-! # Patterns

A pattern is looked for in a text from the left.  What counts is the first place where one can be
found, and there the way that the pattern prefers: alternatives from left to right, repetitions as
long as they can or, if they are modest, as short.  The text fits when what is found in this way
reaches its end.  The search goes through the text once, with the ways that are still open, the
preferred ones first; a way that has come to its end closes all ways after it.

Patterns are written as is usual: single characters, a point for any character but a line break,
classes in brackets, groups, alternatives, the repetitions `*`, `+` and `?`, and the signs for the
start and the end of the text. -/

namespace Guise.Text

/-- A class of characters. -/
inductive CharClass where
  | nothing
  | range (low high : Char)
  | digit
  | word
  | white
  | union (k l : CharClass)
  | complement (k : CharClass)
  /-- With each ASCII letter also the other case of it. -/
  | caseless (k : CharClass)
  deriving DecidableEq

namespace CharClass

/-- The class of one character. -/
def single (c : Char) : CharClass := range c c

/-- Whether a character is in a class. -/
def contains (c : Char) : CharClass → Bool
  | nothing => false
  | range low high => decide (low ≤ c ∧ c ≤ high)
  | digit => c.isDigit
  | word => isAlphanumeric c || c == '_'
  | white => isWhite c
  | union k l => k.contains c || l.contains c
  | complement k => !k.contains c
  | caseless k => k.contains c || k.contains c.toLower || k.contains c.toUpper

end CharClass

/-- A description of texts. -/
inductive Pattern where
  | never
  | empty
  | one (k : CharClass)
  | seq (p q : Pattern)
  | alt (p q : Pattern)
  /-- A repetition, modest or not. -/
  | star (modest : Bool) (p : Pattern)
  /-- The start of the text, or of a line as well. -/
  | atStart (lines : Bool)
  /-- The end of the text, or of a line as well. -/
  | atEnd (lines : Bool)
  deriving DecidableEq

/-- How a pattern can begin: with its end, or with a character and what then follows. -/
inductive Opening where
  | accept
  | read (k : CharClass) (rest : Pattern)

namespace Pattern

/-- One pattern after another. -/
def followedBy : Pattern → Pattern → Pattern
  | never, _ => never
  | empty, q => q
  | p, q => seq p q

/-- Whether a sign for a start or an end holds beside a character, if one is there. -/
def borders (lines : Bool) (beside : Option Char) : Bool :=
  beside.isNone || (lines && beside == some '\n')

/-- The openings of a pattern between two characters, the preferred ones first. -/
def openings (before after : Option Char) : Pattern → List Opening
  | never => []
  | empty => [.accept]
  | one k => [.read k empty]
  | seq p q => (p.openings before after).flatMap fun
    | .accept => q.openings before after
    | .read k rest => [.read k (rest.followedBy q)]
  | alt p q => p.openings before after ++ q.openings before after
  | star modest p =>
    let longer := (p.openings before after).filterMap fun
      | .accept => none
      | .read k rest => some (.read k (rest.followedBy (star modest p)))
    if modest then .accept :: longer else longer ++ [.accept]
  | atStart lines => if borders lines before then [.accept] else []
  | atEnd lines => if borders lines after then [.accept] else []

/-- The ways that are open after a character, out of openings of which an end closes those after
it. -/
def steps (c : Char) : List Opening → List Pattern
  | [] => []
  | .accept :: _ => []
  | .read k rest :: r => if k.contains c then rest :: steps c r else steps c r

/-- Whether one of the open ways comes to its end at the end of a text. -/
def reachesEnd (before : Option Char) (ways : List Pattern) : List Char → Bool
  | [] => ways.any fun p => (p.openings before none).any fun
    | .accept => true
    | .read .. => false
  | c :: r =>
    let next := steps c (ways.flatMap (openings before (some c)))
    reachesEnd (some c) next.eraseDups r

/-- The pattern after as few characters as can be. -/
def sought (p : Pattern) : Pattern := seq (star true (one (.complement .nothing))) p

/-- Whether what is found of a pattern in a text reaches the text's end. -/
def fits (p : Pattern) (s : String) : Bool := reachesEnd none [p.sought] s.toList

/-! ### Reading patterns -/

/-- How a group is read: letters in either case, a point for line breaks too, starts and ends of
lines. -/
structure Flags where
  caseless : Bool
  breaks : Bool
  lines : Bool

/-- The flags with one of them on or off, if a letter stands for one. -/
def Flags.set? (f : Flags) (on : Bool) (c : Char) : Option Flags :=
  if c = 'i' then some { f with caseless := on }
  else if c = 's' then some { f with breaks := on }
  else if c = 'm' then some { f with lines := on }
  else if c = 'u' then some f
  else none

/-- A group that is being read: the alternatives before this one, what has been read of it, and the
last item, which a repetition may still be put to. -/
structure Group where
  flags : Flags
  before : Pattern
  done : Pattern
  last : Option Pattern

namespace Group

/-- A group of which nothing has been read. -/
def start (f : Flags) : Group := ⟨f, never, empty, none⟩

/-- The alternative that is being read, so far. -/
def current (g : Group) : Pattern := g.done.followedBy (g.last.getD empty)

/-- The pattern of a group. -/
def close (g : Group) : Pattern := if g.before = never then g.current else alt g.before g.current

/-- The group after one more item. -/
def add (g : Group) (p : Pattern) : Group := ⟨g.flags, g.before, g.current, some p⟩

/-- The group after one more character of a class. -/
def addOne (g : Group) (k : CharClass) : Group :=
  g.add (one (if g.flags.caseless then .caseless k else k))

/-- The group after the sign of an alternative. -/
def split (g : Group) : Group := ⟨g.flags, g.close, empty, none⟩

/-- The group with other flags from here on. -/
def flagged (g : Group) (f : Flags) : Group := ⟨f, g.before, g.current, none⟩

/-- The group with its last item repeated, if there is one. -/
def again (g : Group) (f : Pattern → Pattern) : Option Group :=
  g.last.map fun p => ⟨g.flags, g.before, g.done, some (f p)⟩

end Group

/-- The class behind a backslash; a sign stands for itself. -/
def escaped (c : Char) : Option CharClass :=
  match c with
  | 'd' => some .digit
  | 'D' => some (.complement .digit)
  | 's' => some .white
  | 'S' => some (.complement .white)
  | 'w' => some .word
  | 'W' => some (.complement .word)
  | 'n' => some (.single '\n')
  | 't' => some (.single '\t')
  | 'r' => some (.single '\r')
  | _ =>
    if c.isAlphanum || c == '<' || c == '>' || 0x7F < c.toNat then none else some (.single c)

/-- A class that is being read: whether it is turned round, what has been read, and the last single
character, which a range may start from. -/
structure ClassSoFar where
  negated : Bool
  read : CharClass
  last : Option Char

namespace ClassSoFar

/-- The class with some more characters. -/
def add (k : ClassSoFar) (more : CharClass) (last : Option Char) : ClassSoFar :=
  ⟨k.negated, .union k.read more, last⟩

/-- The whole class, with letters in either case if so flagged. -/
def close (k : ClassSoFar) (f : Flags) : CharClass :=
  let read := if f.caseless then .caseless k.read else k.read
  if k.negated then .complement read else read

end ClassSoFar

mutual

/-- Reads on in a group inside of others. -/
def read (g : Group) (outer : List Group) : List Char → Option Pattern
  | [] => if outer.isEmpty then some g.close else none
  | '\\' :: 'A' :: r => read (g.add (atStart false)) outer r
  | '\\' :: 'z' :: r => read (g.add (atEnd false)) outer r
  | '\\' :: c :: r => (escaped c).bind fun k => read (g.addOne k) outer r
  | '[' :: '^' :: ']' :: r => readClass g outer ⟨true, .single ']', some ']'⟩ r
  | '[' :: '^' :: r => readClass g outer ⟨true, .nothing, none⟩ r
  | '[' :: ']' :: r => readClass g outer ⟨false, .single ']', some ']'⟩ r
  | '[' :: r => readClass g outer ⟨false, .nothing, none⟩ r
  | '(' :: '?' :: 'P' :: '<' :: r => readName g outer r
  | '(' :: '?' :: '<' :: r => readName g outer r
  | '(' :: '?' :: r => readFlags g outer true g.flags r
  | '(' :: r => read (.start g.flags) (g :: outer) r
  | ')' :: r =>
    match outer with
    | [] => none
    | o :: rest => read (o.add g.close) rest r
  | '|' :: r => read g.split outer r
  | '*' :: '?' :: r => (g.again (star true)).bind fun g => read g outer r
  | '*' :: r => (g.again (star false)).bind fun g => read g outer r
  | '+' :: '?' :: r => (g.again fun p => p.followedBy (star true p)).bind fun g => read g outer r
  | '+' :: r => (g.again fun p => p.followedBy (star false p)).bind fun g => read g outer r
  | '?' :: '?' :: r => (g.again (alt empty)).bind fun g => read g outer r
  | '?' :: r => (g.again (alt · empty)).bind fun g => read g outer r
  | '.' :: r =>
    read (g.add (one (.complement (if g.flags.breaks then .nothing else .single '\n')))) outer r
  | '^' :: r => read (g.add (atStart g.flags.lines)) outer r
  | '$' :: r => read (g.add (atEnd g.flags.lines)) outer r
  | c :: r => if c = '\\' ∨ c = '\x7b' then none else read (g.addOne (.single c)) outer r

/-- Reads on inside of a class. -/
def readClass (g : Group) (outer : List Group) (k : ClassSoFar) : List Char → Option Pattern
  | [] => none
  | ']' :: r => read (g.add (one (k.close g.flags))) outer r
  | '\\' :: c :: r => (escaped c).bind fun more => readClass g outer (k.add more (some c)) r
  | '-' :: ']' :: r => read (g.add (one ((k.add (.single '-') none).close g.flags))) outer r
  | '-' :: c :: r =>
    match k.last with
    | none => readClass g outer (k.add (.union (.single '-') (.single c)) (some c)) r
    | some low => if low ≤ c then readClass g outer (k.add (.range low c) none) r else none
  | c :: r => if c = '[' then none else readClass g outer (k.add (.single c) (some c)) r

/-- Reads on inside of the name of a group. -/
def readName (g : Group) (outer : List Group) : List Char → Option Pattern
  | [] => none
  | '>' :: r => read (.start g.flags) (g :: outer) r
  | _ :: r => readName g outer r

/-- Reads on inside of flags, which are for a group of their own or for what is left of this one. -/
def readFlags (g : Group) (outer : List Group) (on : Bool) (f : Flags) :
    List Char → Option Pattern
  | [] => none
  | ':' :: r => read (.start f) (g :: outer) r
  | ')' :: r => read (g.flagged f) outer r
  | '-' :: r => readFlags g outer false f r
  | c :: r => (f.set? on c).bind fun f => readFlags g outer on f r

end

/-- The pattern that a text stands for. -/
def ofText? (s : String) : Option Pattern := read (.start ⟨false, false, false⟩) [] s.toList

end Pattern
end Guise.Text

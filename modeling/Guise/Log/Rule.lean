import Guise.Notice
import Guise.Text.Alphanumeric
import Guise.Text.Blank
import Guise.Text.Pattern

/-! # Rules of a filter

A rule says how far notices are let through: those of the parts of a program whose names start in
one way, or those told inside of spans with a name or a field.  As text, a rule is a level alone or
`part[span\x7bfield=value\x7d]=level`, where each piece may be missing.  The pieces are found in the
text without the white space around it, but their places are then counted from the start of the text
itself, so white space in front shifts every piece. -/

namespace Guise.Log

/-- A field that a rule asks for, with a pattern for its text, if that matters. -/
structure FieldRule where
  name : String
  value : Option String
  deriving DecidableEq, Repr

/-- How far a rule lets notices through, as the rank of the last severity; 0 lets none through. -/
structure Rule where
  part : String
  span : Option String
  field : Option FieldRule
  rank : Nat
  deriving DecidableEq, Repr

/-- What is wrong with the text of a rule. -/
inductive Fault where
  | unreadable
  /-- A piece would be cut inside a character. -/
  | torn
  deriving DecidableEq, Repr

/-! ### Levels -/

/-- The rank that a number up to 5 stands for, written in digits with or without a sign `+`. -/
def rankOfNumber? (s : List Char) : Option Nat :=
  let digits := if s.head? = some '+' then s.tail else s
  let n := digits.foldl (fun n c => 10 * n + (c.toNat - '0'.toNat)) 0
  if digits ≠ [] ∧ digits.all Char.isDigit ∧ n ≤ Severity.trace.rank then some n else none

/-- The rank that a level stands for, a name in any case or a number. -/
def level? (s : String) : Option Nat :=
  match s.toLower with
  | "off" => some 0
  | "error" => some Severity.error.rank
  | "warn" => some Severity.warn.rank
  | "info" => some Severity.info.rank
  | "debug" => some Severity.debug.rank
  | "trace" => some Severity.trace.rank
  | _ => rankOfNumber? s.toList

/-! ### Fields -/

/-- Whether a text is digits, with or without a point among them, and some digit. -/
def isDecimal (s : List Char) : Bool :=
  let rest := (s.dropWhile Char.isDigit)
  let fraction := if rest.head? = some '.' then rest.tail else rest
  s.any Char.isDigit && fraction.all Char.isDigit && (rest.isEmpty || rest.head? == some '.')

/-- A text without a sign at its start. -/
def unsigned (s : List Char) : List Char :=
  if s.head? = some '+' ∨ s.head? = some '-' then s.tail else s

/-- Whether a text is a number, with or without a power of ten, or the name of one. -/
def isNumeral (s : String) : Bool :=
  let body := unsigned s.toList
  let isPower (c : Char) := c == 'e' || c == 'E'
  let power := body.dropWhile (!isPower ·)
  ["inf", "infinity", "nan"].contains (String.ofList body).toLower ||
    isDecimal (body.takeWhile (!isPower ·)) &&
      (power.isEmpty || ((unsigned power.tail).all Char.isDigit && !(unsigned power.tail).isEmpty))

/-- Whether a value that a rule asks for is a number or a truth value, and no pattern of texts. -/
def isPlainValue (s : String) : Bool := s = "true" || s = "false" || isNumeral s

namespace FieldRule

/-- The field that a text asks for: its name, and after the sign `=` its value, up to another. -/
def ofText? (s : String) : Option FieldRule :=
  match s.splitOn "=" with
  | name :: value :: _ =>
    if isPlainValue value || (Text.Pattern.ofText? value).isSome then some ⟨name, some value⟩
    else none
  | _ => some ⟨s, none⟩

/-- Whether the text of a field is as asked for; a text is never a number or a truth value. -/
def accepts (f : FieldRule) (text : String) : Bool :=
  match f.value with
  | none => true
  | some value =>
    !isPlainValue value && (Text.Pattern.ofText? value).any (·.fits text)

end FieldRule

/-! ### Reading rules -/

namespace Rule

/-- Whether a rule can start with a character, other than with a span. -/
def startsRule (c : Char) : Bool :=
  Text.isAlphanumeric c || c == '_' || c == ':' || c == '-'

/-- The text before and after its first so many bytes, if no character lies across. -/
def cut : Nat → List Char → Option (List Char × List Char)
  | 0, s => some ([], s)
  | _ + 1, [] => none
  | n + 1, c :: s =>
    if c.utf8Size ≤ n + 1 then (cut (n + 1 - c.utf8Size) s).map fun (l, r) => (c :: l, r) else none

/-- The piece of a text between two places. -/
def piece (text : List Char) (first last : Nat) : Except Fault String :=
  match (cut last text).bind fun s => cut first s.1 with
  | some (_, s) => .ok (String.ofList s)
  | none => .error .torn

/-- The piece of a text from a place on. -/
def pieceFrom (text : List Char) (first : Nat) : Except Fault String :=
  match cut first text with
  | some (_, s) => .ok (String.ofList s)
  | none => .error .torn

/-- What is being read of a rule, and from which place on. -/
inductive Stage where
  | start
  /-- A level, or the name of a part. -/
  | name
  | span (first : Nat)
  | field (first : Nat)
  /-- After the field. -/
  | closing
  /-- After the span. -/
  | tail
  | level (first : Nat)

/-- What is read after the character at a place. -/
def advance (text : List Char) (place : Nat) (c : Char) :
    Stage × Rule → Except Fault (Stage × Rule)
  | (.start, r) =>
    if c = '[' then .ok (.span (place + 1), r)
    else if startsRule c then .ok (.name, r)
    else .error .unreadable
  | (.name, r) =>
    if c = '=' then do
      let part ← piece text 0 place
      pure (.level (place + 1), { r with part := part })
    else if c = '[' then do
      let part ← piece text 0 place
      pure (.span (place + 1), { r with part := part })
    else .ok (.name, r)
  | (.span first, r) =>
    if c = ']' then do
      let name ← piece text first place
      pure (.tail, { r with span := some name })
    else if c = '\x7b' then do
      let name ← piece text first place
      pure (.field (place + 1), { r with span := if name = "" then none else some name })
    else .ok (.span first, r)
  | (.field first, r) =>
    if c = '\x7d' then do
      let f ← piece text first place
      match if f = "" then none else FieldRule.ofText? f with
      | some f => pure (.closing, { r with field := some f })
      | none => .error .unreadable
    else .ok (.field first, r)
  | (.closing, r) => if c = ']' then .ok (.tail, r) else .error .unreadable
  | (.tail, r) => if c = '=' then .ok (.level (place + 1), r) else .error .unreadable
  | (.level first, r) => .ok (.level first, r)

/-- What is read after characters from a place on. -/
def advanceAll (text : List Char) : Nat → List Char → Stage × Rule → Except Fault (Stage × Rule)
  | _, [], s => .ok s
  | place, c :: r, s => advance text place c s >>= advanceAll text (place + c.utf8Size) r

/-- The rule that has been read at the end of a text.  A text that is no level is a part without
limit, and no level is no limit. -/
def finish (text : List Char) : Stage × Rule → Except Fault Rule
  | (.name, r) =>
    match level? (String.ofList text) with
    | some rank => .ok { r with rank := rank }
    | none => .ok { r with part := String.ofList text }
  | (.level first, r) => do
    let level ← pieceFrom text first
    if level = "" then pure r
    else match level? level with
      | some rank => pure { r with rank := rank }
      | none => .error .unreadable
  | (.tail, r) => .ok r
  | _ => .error .unreadable

/-- The rule that a text stands for. -/
def ofText (s : String) : Except Fault Rule :=
  let text := s.toList
  advanceAll text 0 (Text.trim text) (.start, ⟨"", none, none, Severity.trace.rank⟩) >>= finish text

end Rule
end Guise.Log

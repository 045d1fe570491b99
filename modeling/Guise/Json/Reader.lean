import Guise.Json.Basic

/-! # Reading documents

A document is one value: a word (`null`, `true` or `false`), a number, a text in quotes, items between
brackets, or members between braces, each a text and a value with a colon between them.  Commas part
items and members, and none may be left over.  Spaces, tabs, line feeds and carriage returns may stand
around every part, and no other blank, nor a byte order mark.  A number has no leading zero, and a text
no control but by an escape.

Each reader gives what it read with the characters that follow.  Nesting is bounded by a supply of steps
that two per character always suffice for. -/

namespace Guise.Json

def isBlank (c : Char) : Bool := c == ' ' || c == '\n' || c == '\t' || c == '\r'

/-- The characters from the first that is no blank on. -/
def skipBlanks (s : List Char) : List Char := s.dropWhile isBlank

/-- The value of a decimal digit. -/
def digit? (c : Char) : Option Nat :=
  if '0' ≤ c ∧ c ≤ '9' then some (c.toNat - 48) else none

/-- The value of a hexadecimal digit, in either case. -/
def hexDigit? (c : Char) : Option Nat :=
  if '0' ≤ c ∧ c ≤ '9' then some (c.toNat - 48)
  else if 'a' ≤ c ∧ c ≤ 'f' then some (c.toNat - 87)
  else if 'A' ≤ c ∧ c ≤ 'F' then some (c.toNat - 55)
  else none

/-- The digits at the start, and what follows them. -/
def digits : List Char → List Nat × List Char
  | [] => ([], [])
  | c :: r =>
    match digit? c with
    | some d => let t := digits r; (d :: t.1, t.2)
    | none => ([], c :: r)

/-! ### Texts -/

/-- A part of a text: a character, or one half of a surrogate pair. -/
inductive Piece where
  | char (c : Char)
  | high (n : Nat)
  | low (n : Nat)

/-- The part that a four-digit escape stands for. -/
def Piece.ofUnit (n : Nat) : Piece :=
  if 0xD800 ≤ n ∧ n < 0xDC00 then .high (n - 0xD800)
  else if 0xDC00 ≤ n ∧ n < 0xE000 then .low (n - 0xDC00)
  else .char (Char.ofNat n)

/-- The number of a four-digit escape. -/
def unit? (a b c d : Char) : Option Nat := do
  let a ← hexDigit? a
  let b ← hexDigit? b
  let c ← hexDigit? c
  let d ← hexDigit? d
  pure (((a * 16 + b) * 16 + c) * 16 + d)

/-- The character of a one-letter escape. -/
def escaped? (c : Char) : Option Char :=
  if c = '"' then some '"'
  else if c = '\\' then some '\\'
  else if c = '/' then some '/'
  else if c = 'b' then some '\x08'
  else if c = 'f' then some '\x0c'
  else if c = 'n' then some '\n'
  else if c = 'r' then some '\r'
  else if c = 't' then some '\t'
  else none

/-- The parts of a text up to its closing quote. -/
def pieces : List Char → Option (List Piece × List Char)
  | [] => none
  | '"' :: r => some ([], r)
  | '\\' :: 'u' :: a :: b :: c :: d :: r =>
    match unit? a b c d, pieces r with
    | some n, some (ps, t) => some (.ofUnit n :: ps, t)
    | _, _ => none
  | '\\' :: e :: r =>
    match escaped? e, pieces r with
    | some c, some (ps, t) => some (.char c :: ps, t)
    | _, _ => none
  | c :: r =>
    if c.toNat < 0x20 then none
    else match pieces r with
      | some (ps, t) => some (.char c :: ps, t)
      | none => none

/-- Joins the halves of surrogate pairs; none when a half stands alone. -/
def join : List Piece → Option (List Char)
  | [] => some []
  | .char c :: r => (join r).map (c :: ·)
  | .high h :: .low l :: r => (join r).map (Char.ofNat (0x10000 + h * 0x400 + l) :: ·)
  | .high _ :: _ => none
  | .low _ :: _ => none

/-- A text after its opening quote; the text is none when half of a pair stands alone in it. -/
def readText (s : List Char) : Option (Option String × List Char) :=
  (pieces s).map fun t => ((join t.1).map String.ofList, t.2)

/-! ### Numbers -/

/-- The exponent at the start, if any. -/
def readExponent : List Char → Option (Option Int × List Char)
  | c :: r =>
    if c = 'e' ∨ c = 'E' then
      let (negative, r) := match r with
        | '-' :: r => (true, r)
        | '+' :: r => (false, r)
        | r => (false, r)
      match digits r with
      | ([], _) => none
      | (ds, t) =>
        let n : Int := (ds.foldl (fun n d => n * 10 + d) 0 : Nat)
        some (some (if negative then -n else n), t)
    else some (none, c :: r)
  | [] => some (none, [])

/-- The fraction at the start, if any. -/
def readFraction : List Char → Option (Option (List Nat) × List Char)
  | '.' :: r =>
    match digits r with
    | ([], _) => none
    | (ds, t) => some (some ds, t)
  | r => some (none, r)

/-- A number without its sign. -/
def readUnsigned (negative : Bool) (s : List Char) : Option (Json × List Char) :=
  match digits s with
  | ([], _) => none
  | (0 :: _ :: _, _) => none
  | (whole, r) => do
    let (fraction, r) ← readFraction r
    let (exponent, r) ← readExponent r
    let n := match fraction, exponent with
      | none, none => Number.ofDigits negative whole
      | f, e => Number.ofReal negative whole (f.getD []) (e.getD 0)
    pure ((n.map number).getD malformed, r)

/-- A number; its sign can only be a minus. -/
def readNumber : List Char → Option (Json × List Char)
  | '-' :: r => readUnsigned true r
  | r => readUnsigned false r

/-! ### Values -/

/-- An object of members whose keys may be no texts. -/
def ofMembers (ms : List (Option String × Json)) : Json :=
  match ms.mapM fun m => m.1.map (·, m.2) with
  | some ms => object ms
  | none => malformed

mutual

/-- One value, after blanks. -/
def readValue (fuel : Nat) (s : List Char) : Option (Json × List Char) :=
  match fuel with
  | 0 => none
  | fuel + 1 =>
    match skipBlanks s with
    | 'n' :: 'u' :: 'l' :: 'l' :: r => some (null, r)
    | 't' :: 'r' :: 'u' :: 'e' :: r => some (bool true, r)
    | 'f' :: 'a' :: 'l' :: 's' :: 'e' :: r => some (bool false, r)
    | '"' :: r => (readText r).map fun t => ((t.1.map string).getD malformed, t.2)
    | '[' :: r =>
      match skipBlanks r with
      | ']' :: r => some (array [], r)
      | r => (readItems fuel r).map fun t => (array t.1, t.2)
    | '{' :: r =>
      match skipBlanks r with
      | '}' :: r => some (object [], r)
      | r => (readMembers fuel r).map fun t => (ofMembers t.1, t.2)
    | r => readNumber r

/-- The items of an array up to its closing bracket. -/
def readItems (fuel : Nat) (s : List Char) : Option (List Json × List Char) :=
  match fuel with
  | 0 => none
  | fuel + 1 =>
    match readValue fuel s with
    | none => none
    | some (j, r) =>
      match skipBlanks r with
      | ']' :: r => some ([j], r)
      | ',' :: r => (readItems fuel r).map fun t => (j :: t.1, t.2)
      | _ => none

/-- The members of an object up to its closing brace. -/
def readMembers (fuel : Nat) (s : List Char) : Option (List (Option String × Json) × List Char) :=
  match fuel with
  | 0 => none
  | fuel + 1 =>
    match skipBlanks s with
    | '"' :: r =>
      match readText r with
      | none => none
      | some (k, r) =>
        match skipBlanks r with
        | ':' :: r =>
          match readValue fuel r with
          | none => none
          | some (j, r) =>
            match skipBlanks r with
            | '}' :: r => some ([(k, j)], r)
            | ',' :: r => (readMembers fuel r).map fun t => ((k, j) :: t.1, t.2)
            | _ => none
        | _ => none
    | _ => none

end

/-- The value that a text holds, with nothing but blanks around it. -/
def read (s : String) : Option Json :=
  let cs := s.toList
  match readValue (2 * cs.length + 2) cs with
  | some (j, r) => if (skipBlanks r).isEmpty then some j else none
  | none => none

/-- A whole document: nothing in it malformed, and no nesting beyond the deepest. -/
def readDocument (s : String) : Option Json :=
  (read s).filter fun j => j.isSound && j.depth ≤ deepest

end Guise.Json

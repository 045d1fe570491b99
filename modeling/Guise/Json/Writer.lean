import Guise.Json.Basic

/-! # Writing documents

The compact form: no blanks, members in their order, and in texts only the quote, the backslash and
the characters below U+0020 are escaped. -/

namespace Guise.Json

/-- A hexadecimal digit in lower case. -/
def hexDigit (n : Nat) : Char :=
  (Nat.digitChar (n % 16))

/-- How a character stands inside a written text. -/
def escape (c : Char) : List Char :=
  if c = '"' then ['\\', '"']
  else if c = '\\' then ['\\', '\\']
  else if c = '\x08' then ['\\', 'b']
  else if c = '\t' then ['\\', 't']
  else if c = '\n' then ['\\', 'n']
  else if c = '\x0c' then ['\\', 'f']
  else if c = '\r' then ['\\', 'r']
  else if c.toNat < 0x20 then ['\\', 'u', '0', '0', hexDigit (c.toNat / 16), hexDigit c.toNat]
  else [c]

/-- A text between quotes. -/
def writeText (s : String) : List Char :=
  '"' :: (s.toList.flatMap escape ++ ['"'])

mutual

/-- The compact text of a value. -/
def write : Json → List Char
  | null => ['n', 'u', 'l', 'l']
  | bool true => ['t', 'r', 'u', 'e']
  | bool false => ['f', 'a', 'l', 's', 'e']
  | number n => n.text.toList
  | string s => writeText s
  | array items => '[' :: (writeItems items ++ [']'])
  | object members => '{' :: (writeMembers members ++ ['}'])
  | malformed => ['n', 'u', 'l', 'l']

def writeItems : List Json → List Char
  | [] => []
  | [j] => write j
  | j :: r => write j ++ ',' :: writeItems r

def writeMembers : List (String × Json) → List Char
  | [] => []
  | [(k, j)] => writeText k ++ ':' :: write j
  | (k, j) :: r => writeText k ++ ':' :: (write j ++ ',' :: writeMembers r)

end

/-- The compact text of a value. -/
def text (j : Json) : String := String.ofList (write j)

end Guise.Json

/-! # Files

What a system has in its files is known by what it answers for each path.  Reading a file as a text can
fail in two more ways: a path with a zero character is never put to the system, and bytes need not be a
text. -/

namespace Guise

/-- The answer of a system for each path: the bytes of the file there, or the words in which it refuses. -/
abbrev Files := String → Except String ByteArray

namespace Files

/-- Why a file has no text. -/
inductive Fault where
  | zeroCharacter
  | refused (words : String)
  | notText

/-- The wording of a fault. -/
def Fault.message : Fault → String
  | zeroCharacter => "file name contained an unexpected NUL byte"
  | refused words => words
  | notText => "stream did not contain valid UTF-8"

/-- The text of the file at a path. -/
def read (files : Files) (path : String) : Except Fault String :=
  if path.toList.contains '\x00' then .error .zeroCharacter
  else
    match files path with
    | .error words => .error (.refused words)
    | .ok bytes =>
      match String.fromUTF8? bytes with
      | some text => .ok text
      | none => .error .notText

end Files
end Guise

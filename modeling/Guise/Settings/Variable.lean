import Guise.Settings.Basic

/-! # Settings in environment variables

A path is read from the variable named by its characters in upper case, with `/`, `-` and `.`
replaced by `_`, after a common stem and another `_`.  Only ASCII letters change case. -/

namespace Guise

/-- The upper case of an ASCII letter; any other character stays. -/
def upperAscii (c : Char) : Char :=
  if 'a' ≤ c ∧ c ≤ 'z' then Char.ofNat (c.toNat - 32) else c

namespace Settings

/-- The character of a variable's name for a character of a path. -/
def variableChar (c : Char) : Char :=
  if c = '/' ∨ c = '-' ∨ c = '.' then '_' else upperAscii c

/-- The variable's name for a path without a stem. -/
def bareVariable (path : String) : String := String.ofList (path.toList.map variableChar)

/-- The variable's name for a path; an empty stem adds nothing. -/
def variableName (stem path : String) : String :=
  if stem = "" then bareVariable path else stem ++ "_" ++ bareVariable path

/-- The stem of variables' names unless another is given. -/
def defaultStem : String := "RUNAS"

/-- What the environment of a process answers for a name.  It keeps a variable as one text, the name
and the value with the sign `=` between them, so a name that holds this sign itself reaches into the
value. -/
def processVariable (vars : List (String × String)) (name : String) : Option String :=
  let chars := name.toList
  match chars.dropWhile (· != '=') with
  | [] => lookupLast name vars
  | _ :: reach =>
    (lookupLast (String.ofList (chars.takeWhile (· != '='))) vars).bind fun value =>
      ((reach ++ ['=']).isPrefixOf? value.toList).map String.ofList

/-- Settings read from the variables of an environment. -/
def environment (stem : String) (read : String → Option String) : Settings :=
  source fun path => read (variableName stem path)

end Settings
end Guise

import Guise.Session.Run
import Guise.Log.Filter

/-! # Lines of a log

A log prints the notices that its filter lets through, one a line, as records for machines or as
text for people.  Of several printers set up in a program only the first prints. -/

namespace Guise.Log

/-- The form of a log's lines. -/
inductive Form where
  | records
  | text
  deriving DecidableEq, Repr

namespace Form

/-- The filter of a log without one of its own. -/
def defaultFilter : Form → Filter
  | records => [⟨"", none, none, Severity.info.rank⟩]
  | text => [⟨"", none, none, Severity.debug.rank⟩]

end Form

/-- A printed line. -/
inductive Line where
  | record (value : Json)
  | text (value : String)

/-- The value of a field in a record. -/
def recordValue : FieldValue → Json
  | .count n => .number (.integer n)
  | .text s => .string s
  | .shown s => .string s

/-- The value of a field in a text. -/
def textValue : FieldValue → String
  | .count n => toString n
  | .text s => Text.quoted s
  | .shown s => s

/-- A span in a record. -/
def callerRecord (c : Caller) : Json :=
  .object [("name", .string Caller.spanName), ("kind", .string c.kind.text),
    ("principal", .string c.principal)]

/-- A span in a text; the mark stands for a number that is never the same. -/
def callerText (c : Caller) : String :=
  Caller.spanName ++ "\x7binvocation=* kind=" ++ c.kind.text ++ " principal=" ++
    Text.quoted c.principal ++ "\x7d:"

/-- The record of a notice inside spans, the outermost first. -/
def recordLine (n : Notice) (callers : List Caller) : Json :=
  let fields := ("message", Json.string n.message) :: n.fields.map fun f => (f.1, recordValue f.2)
  let spans := match callers.getLast? with
    | none => []
    | some c => [("span", callerRecord c), ("spans", .array (callers.map callerRecord))]
  .object ([("fields", .object fields), ("level", .string n.severity.text)] ++ spans)

/-- The text of a notice inside spans, the outermost first. -/
def textLine (n : Notice) (callers : List Caller) : String :=
  let spans := if callers.isEmpty then "" else String.join (callers.map callerText) ++ " "
  let fields := n.fields.map fun f => " " ++ f.1 ++ "=" ++ textValue f.2
  n.severity.text ++ " " ++ spans ++ n.part ++ ": " ++ n.message ++ String.join fields

/-- What prints a log. -/
structure Printer where
  form : Form
  filter : Filter

/-- What prints when several printers have been set up; the environment may name its filter.  A text
that is no filter leaves the form's own; over a torn rule the program ends before it prints. -/
def inUse (forms : List Form) (named : Option String) : Option Printer :=
  forms.head?.bind fun form =>
    match named.map Filter.ofText with
    | none | some (.error .unreadable) => some ⟨form, form.defaultFilter⟩
    | some (.ok f) => some ⟨form, f⟩
    | some (.error .torn) => none

namespace Printer

/-- The lines of a journal's entry, if the log prints it.  A text with line breaks in a shown field
is more than one line. -/
def lines (g : Printer) : Entry → List Line
  | .told n callers entered =>
    if g.filter.passes n entered then
      match g.form with
      | .records => [.record (recordLine n callers)]
      | .text => ((textLine n callers).splitOn "\n").map .text
    else []
  | _ => []

end Printer

/-- The lines that a session prints with a printer. -/
def lines (printer : Option Printer) (s : Session) : List Line :=
  match printer with
  | none => []
  | some g => (s.journal g.filter.takesSpans).flatMap g.lines

end Guise.Log

import Guise.Log.Rule

/-! # Filters of a log

A filter is a list of rules.  A notice passes if the plain rule that decides about its part lets it
through: that with the longest start of the part's name, of equal ones the last; a part that no rule
is for is silent.  It passes as well inside of a span that some rule for spans lets it through in.
The text of a filter lists its rules with commas; without any rule only errors pass. -/

namespace Guise.Log

/-- The rules of a filter in order. -/
abbrev Filter := List Rule

namespace Rule

/-- Whether a rule is for spans and what is told inside of them. -/
def isForSpans (r : Rule) : Bool := r.span.isSome || r.field.isSome

/-- Whether a rule is for parts: it names no span and asks for no field's text. -/
def isForParts (r : Rule) : Bool := r.span.isNone && r.field.all (·.value.isNone)

/-- Whether two rules are for the same spans. -/
def isLike (r s : Rule) : Bool := r.part == s.part && r.span == s.span && r.field == s.field

/-- Whether a rule is for the part of this name. -/
def isOf (r : Rule) (part : String) : Bool := part.startsWith r.part

/-- Whether a rule for parts is for notices of a part with fields of these names. -/
def isForNotices (r : Rule) (part : String) (names : List String) : Bool :=
  r.isForParts && r.isOf part && r.field.all fun f => names.contains f.name

/-- Whether a rule is for the spans of calls. -/
def isForCalls (r : Rule) : Bool :=
  r.isForSpans && r.isOf Notice.executorPart && r.span.all (· == Caller.spanName) &&
    r.field.all fun f => Caller.fieldNames.contains f.name

/-- Whether a rule for parts is decided after another one: its start of a name is longer, or it asks
for a field, of two fields for the one with the greater name; an equal one counts again. -/
def overrides (r best : Rule) : Bool :=
  if r.part.length = best.part.length then
    match best.field, r.field with
    | none, _ => true
    | some _, none => false
    | some f, some g => decide (f.name ≤ g.name)
  else decide (best.part.length < r.part.length)

end Rule

namespace Filter

/-- The filter that lets errors through. -/
def errorsOnly : Filter := [⟨"", none, none, Severity.error.rank⟩]

/-- The filter that a text stands for, if every rule in it is one; the first that is none decides
what is wrong. -/
def ofText (s : String) : Except Fault Filter :=
  let rules := (s.splitOn ",").filter (· != "")
  if rules.isEmpty then .ok errorsOnly else rules.mapM Rule.ofText

/-- The rule that decides among those that apply, where `best` does if no other applies. -/
def decisive (applies : Rule → Bool) (best : Option Rule) : Filter → Option Rule
  | [] => best
  | r :: rest =>
    if applies r && best.all r.overrides then decisive applies (some r) rest
    else decisive applies best rest

/-- The rules for spans; of equal ones the last. -/
def forSpans : Filter → List Rule
  | [] => []
  | r :: rest =>
    if r.isForSpans && !rest.any r.isLike then r :: forSpans rest else forSpans rest

/-- The furthest rank of some rules. -/
def furthest (rules : List Rule) : Nat := rules.foldl (fun n r => max n r.rank) 0

/-- How far any rule lets anything through.  Where a field's text matters, spans of all ranks are
taken to look at it. -/
def reach (f : Filter) : Nat :=
  if f.forSpans.any fun r => r.field.any (·.value.isSome) then Severity.trace.rank else furthest f

/-- Whether spans of calls are taken: a rule for spans is for them, or they pass like a notice of
their part. -/
def takesSpans (f : Filter) : Bool :=
  decide (Severity.debug.rank ≤ f.reach) &&
    (f.forSpans.any Rule.isForCalls ||
      (decisive (fun r => r.isForParts && r.isOf Notice.executorPart) none f).any
        fun r => Severity.debug.rank ≤ r.rank)

/-- How far notices are let through inside of the span of a call. -/
def rankWithin (f : Filter) (c : Caller) : Nat :=
  furthest (f.forSpans.filter fun r =>
    r.isForCalls && r.field.all fun field => (c.field? field.name).any field.accepts)

/-- Whether a filter lets a notice through that is told inside of spans. -/
def passes (f : Filter) (n : Notice) (entered : List Caller) : Bool :=
  ((decisive (·.isForNotices n.part n.fieldNames) none f).any fun r => n.severity.rank ≤ r.rank) ||
    (decide (n.severity.rank ≤ furthest (f.filter Rule.isForSpans)) &&
      entered.any fun c => n.severity.rank ≤ f.rankWithin c)

end Filter
end Guise.Log

import Destructure.Dispatch.Basic

/-!
# Destructure.Trace

What happened while patterns were read and values were matched, as flat records with named text
fields: the form in which it is logged.
-/

namespace Destructure

/-- How much detail a record is. -/
inductive TraceLevel where
  | trace
  | debug
  deriving DecidableEq, Repr

/-- The activity that a record is about. -/
inductive TraceArea where
  | parsing
  | series
  | matching
  | dispatch
  | cache
  deriving DecidableEq, Repr

/-- One record: a remark, or the start of a longer activity with a name. -/
structure TraceRecord where
  area : TraceArea
  level : TraceLevel
  startsActivity : Bool
  /-- The remark, or the name of the activity. -/
  message : String
  fields : List (String × String)
  deriving DecidableEq, Repr

mutual

/-- The records of an event with those of what happened inside it, in front of `rest`. -/
def ParseEvent.recordsBefore : ParseEvent → List TraceRecord → List TraceRecord
  | .pattern offset inner, rest =>
    ⟨.parsing, .trace, false, "pattern", [("pos", Nat.repr offset)]⟩
      :: ParseEvent.recordsListBefore inner rest
  | .blank offset, rest =>
    ⟨.series, .trace, false, "series blank", [("pos", Nat.repr offset)]⟩ :: rest
  | .element offset terminator, rest =>
    ⟨.series, .trace, false, "series element",
      [("pos", Nat.repr offset), ("terminator", terminator.toString)]⟩ :: rest
  | .arguments name offset, rest =>
    ⟨.parsing, .trace, false, "constructor pattern",
      [("name", name), ("pos", Nat.repr offset)]⟩ :: rest

/-- The records of events in order, in front of `rest`. -/
def ParseEvent.recordsListBefore : List ParseEvent → List TraceRecord → List TraceRecord
  | [], rest => rest
  | e :: es, rest => e.recordsBefore (ParseEvent.recordsListBefore es rest)

end

/-- The records of an event, with those of what happened inside it. -/
def ParseEvent.records (e : ParseEvent) : List TraceRecord := e.recordsBefore []

/-- The records of events in order. -/
def ParseEvent.recordsList (es : List ParseEvent) : List TraceRecord :=
  ParseEvent.recordsListBefore es []

/-- The record of a failed test. Literals are compared without a word. -/
def Mismatch.records : Mismatch → List TraceRecord
  | .notArray found =>
    [⟨.matching, .trace, false, "array pattern: not an array", [("found", found)]⟩]
  | .wrongLength expected found =>
    [⟨.matching, .trace, false, "array pattern: length mismatch",
      [("expected", Nat.repr expected), ("found", Nat.repr found)]⟩]
  | .notKeyed found =>
    [⟨.matching, .trace, false, "object pattern: no properties", [("found", found)]⟩]
  | .wrongTag expected found =>
    [⟨.matching, .trace, false, "constructor pattern: tag mismatch",
      [("expected", expected), ("found", found.getD "none")]⟩]
  | .missingKey key => [⟨.matching, .trace, false, "object pattern: missing key", [("key", key)]⟩]
  | .otherLiteral => []

/-- The records of an attempt to match. -/
def Verdict.records : Verdict → List TraceRecord
  | .mismatch why => why.records
  | .matched | .misuse _ => []

/-- The records of an event of dispatch. -/
def DispatchEvent.records : DispatchEvent → List TraceRecord
  | .started arms => [⟨.dispatch, .debug, true, "dispatch", [("arms", Nat.repr arms)]⟩]
  | .parsing event => event.records
  | .cacheHit pattern => [⟨.cache, .debug, false, "pattern cache hit", [("pattern", pattern)]⟩]
  | .cacheFull pattern entries =>
    [⟨.cache, .debug, false, "pattern cache full",
      [("pattern", pattern), ("entries", Nat.repr entries)]⟩]
  | .mismatch why => why.records
  | .matched arm pattern bindings =>
    [⟨.dispatch, .debug, false, "arm matched",
      [("arm", Nat.repr arm), ("pattern", pattern), ("bindings", bindings.text)]⟩]
  | .rejected arm pattern =>
    [⟨.dispatch, .debug, false, "guard rejected match",
      [("arm", Nat.repr arm), ("pattern", pattern)]⟩]
  | .unmatched => [⟨.dispatch, .debug, false, "no arm matched", []⟩]

end Destructure

import Destructure.Parsing.Error
import Destructure.Value.Text

/-!
# Destructure.Matching.Error

Why a match cannot be decided. That a value does not match is no error: these are a pattern text
that is no pattern, a pattern that asks for constructor arguments where there are none, and arms
that were to cover every value and do not.
-/

namespace Destructure

/-- What is wrong. -/
inductive MatchError.Cause where
  /-- The text of an arm is no pattern. -/
  | invalidPattern (pattern : String) (error : ParseError)
  /-- A value with the right type tag was asked for constructor arguments, but no case class made
  it. -/
  | notCaseClass (typeName : String)
  /-- No arm matched. -/
  | nonExhaustive
  deriving DecidableEq, Repr

namespace MatchError.Cause

def code : Cause → Code
  | invalidPattern .. => .invalidPattern
  | notCaseClass .. => .notCaseClass
  | nonExhaustive => .nonExhaustive

/-- The cause in general words. -/
def text : Cause → String
  | invalidPattern pattern error => "invalid pattern `" ++ pattern ++ "`: " ++ error.message
  | notCaseClass typeName =>
    "`" ++ typeName ++ "` value was not built by a case class and has no constructor arguments"
  | nonExhaustive => "non-exhaustive match"

end MatchError.Cause

/-- A cause with what else there is to say. -/
structure MatchError where
  cause : MatchError.Cause
  message : String
  notes : List String
  deriving DecidableEq, Repr

namespace MatchError

/-- An error in the general words of its cause. -/
def ofCause (cause : Cause) : MatchError := ⟨cause, cause.text, []⟩

def invalidPattern (pattern : String) (error : ParseError) : MatchError :=
  ofCause (.invalidPattern pattern error)

def notCaseClass (typeName : String) : MatchError := ofCause (.notCaseClass typeName)

/-- The error that no arm matched this value. -/
def nonExhaustive (value : Value) : MatchError :=
  ⟨.nonExhaustive, "non-exhaustive match: no arm matched " ++ value.text, []⟩

/-- Add a note after the others. -/
def addNote (e : MatchError) (note : String) : MatchError := { e with notes := e.notes ++ [note] }

def code (e : MatchError) : Code := e.cause.code

/-- The error that led to this one. -/
def parseError? (e : MatchError) : Option ParseError :=
  match e.cause with
  | .invalidPattern _ error => some error
  | _ => none

/-- The error as a report. For an invalid pattern it points into the text of that pattern, and into
no text otherwise. -/
def toDiagnostic (e : MatchError) : Diagnostic :=
  match e.cause with
  | .invalidPattern _ error =>
    let inner := error.toDiagnostic
    ⟨e.code, e.message, inner.labels,
      ("[" ++ inner.code.text ++ "] " ++ inner.message) :: e.notes, inner.suggestions⟩
  | .notCaseClass typeName =>
    ⟨e.code, e.message, [], e.notes,
      ["match its properties with `" ++ typeName ++ "(\x7b...\x7d)` instead"]⟩
  | .nonExhaustive => ⟨e.code, e.message, [], e.notes, ["add a final `_` arm"]⟩

end MatchError

end Destructure

import Destructure.Cursor
import Destructure.Diagnostic.Basic

/-!
# Destructure.Parsing.Error

Why a text is no pattern. A `ParseError.Cause` says what is wrong, and all wording follows from it:
code, message and hint. A `ParseError` takes these over when it is made, and adds where it is wrong,
what was left to read there, and what was being read.
-/

namespace Destructure

/-- What was being read when an error came up. -/
inductive Production where
  | pattern
  | array
  | object
  | entry
  | tagged
  | number
  | string
  deriving DecidableEq, Inhabited, Repr

/-- The production as the object of "while parsing". -/
def Production.description : Production → String
  | pattern => "a pattern"
  | array => "an array pattern"
  | object => "an object pattern"
  | entry => "an object entry"
  | tagged => "a constructor pattern"
  | number => "a number literal"
  | string => "a string literal"

/-- What is wrong with a text. -/
inductive ParseError.Cause where
  /-- A character that cannot stand here. -/
  | unexpectedCharacter (found : Char) (expected : String)
  /-- The text ends where something has to follow. -/
  | unexpectedEnd (expected : String)
  /-- The text ends inside brackets. -/
  | unclosed (opening closing : Char) (openSpan : Span)
  /-- A separator with nothing before it, in a list without empty slots. -/
  | blankNotAllowed
  /-- A character that no word starts with. -/
  | invalidIdentifier (found : Char)
  /-- A constructor named by a reserved word. -/
  | reservedConstructor (name : String)
  /-- A reserved word as a key that would become a name. -/
  | reservedKey (key : String)
  /-- The text ends inside a string literal. -/
  | unterminatedString (quote : Char)
  /-- A run of digits, points and letters that is no number, or one out of range. -/
  | invalidNumber (text : String)
  /-- Something follows a complete pattern. -/
  | trailingInput
  deriving DecidableEq, Repr

namespace ParseError.Cause

def code : Cause → Code
  | unexpectedCharacter .. => .unexpectedCharacter
  | unexpectedEnd .. => .unexpectedEnd
  | unclosed .. => .unclosedDelimiter
  | blankNotAllowed => .blankNotAllowed
  | invalidIdentifier .. => .invalidIdentifier
  | reservedConstructor .. => .reservedConstructor
  | reservedKey .. => .reservedKey
  | unterminatedString .. => .unterminatedString
  | invalidNumber .. => .invalidNumber
  | trailingInput => .trailingInput

def message : Cause → String
  | unexpectedCharacter found expected =>
    "expected " ++ expected ++ ", found `" ++ found.toString ++ "`"
  | unexpectedEnd expected => "expected " ++ expected ++ ", found end of pattern"
  | unclosed opening closing _ =>
    "unclosed `" ++ opening.toString ++ "`: expected `" ++ closing.toString
      ++ "` before end of pattern"
  | blankNotAllowed => "empty element in object pattern"
  | invalidIdentifier found => "expected an identifier, found `" ++ found.toString ++ "`"
  | reservedConstructor name => "`" ++ name ++ "` cannot be used as a constructor name"
  | reservedKey key => "`" ++ key ++ "` cannot be bound as an object key"
  | unterminatedString quote =>
    "unterminated string literal: missing closing `" ++ quote.toString ++ "`"
  | invalidNumber text => "invalid number literal `" ++ text ++ "`"
  | trailingInput => "unexpected input after pattern"

/-- How to mend the error, where there is a likely way. -/
def hint? : Cause → Option String
  | unclosed _ closing _ => some ("add `" ++ closing.toString ++ "`")
  | blankNotAllowed => some "only array patterns may leave a slot empty, as in `[, x]`"
  | reservedConstructor name =>
    if name = "_" then some "`_` is the wildcard; match any value with a bare `_`"
    else some ("`" ++ name ++ "` is a literal; match it with a bare `" ++ name ++ "`")
  | reservedKey key =>
    if key = "_" then some "`_` binds nothing; name the property instead"
    else some ("give the property an explicit pattern: `" ++ key ++ ": x`")
  | invalidNumber _ =>
    some ("numbers are digits with an optional single fractional digit "
      ++ "and exponent, as in `12`, `1.5` or `2.5e3`")
  | unexpectedCharacter .. | unexpectedEnd .. | invalidIdentifier .. | unterminatedString ..
  | trailingInput => none

end ParseError.Cause

/-- A cause with its place in the text. -/
structure ParseError where
  cause : ParseError.Cause
  code : Code
  message : String
  span : Span
  /-- What was left to read at the start of the span. -/
  remainder : String
  /-- The innermost production that was running, if any. -/
  production : Option Production
  /-- Hints, the one that belongs to the cause first. -/
  help : List String
  deriving DecidableEq, Repr

namespace ParseError

/-- An error outside every production, in the words of its cause. -/
def ofCause (cause : Cause) (span : Span) (remainder : String) : ParseError :=
  ⟨cause, cause.code, cause.message, span, remainder, none, cause.hint?.toList⟩

/-- An error about the stretch from one place to another. What was left to read is the text from the
start of the span as it is stored. Beyond the greatest offset that is not what lies ahead, and it is
empty if the stored start is inside a character. -/
def between (cause : Cause) (start stop : Cursor) : ParseError :=
  let span := stop.spanFrom start.offset
  ofCause cause span (String.ofList (start.toEnd.textFrom span.start.toNat))

/-- An error about the character ahead, or about the end of the text. -/
def here (cause : Cause) (c : Cursor) : ParseError := between cause c c.advance

/-- The error that something else stands ahead than what is expected. -/
def unexpected (expected : String) (c : Cursor) : ParseError :=
  match c.current with
  | some found => here (.unexpectedCharacter found expected) c
  | none => here (.unexpectedEnd expected) c

/-- Name the production that was running, unless an inner one has been named. -/
def within (e : ParseError) (p : Production) : ParseError :=
  { e with production := e.production.or (some p) }

/-- Add a hint after the others. -/
def addHelp (e : ParseError) (hint : String) : ParseError := { e with help := e.help ++ [hint] }

/-- The error on one line, with what was left to read. -/
def text (e : ParseError) : String :=
  e.message ++ " at " ++ e.span.text
    ++ (if e.remainder.isEmpty then "" else " (remaining input: `" ++ e.remainder ++ "`)")

/-- The error as a report to be drawn under the text that was read. -/
def toDiagnostic (e : ParseError) : Diagnostic where
  code := e.code
  message := e.message
  labels :=
    let remark := match e.production with
      | some p => "while parsing " ++ p.description
      | none => "here"
    let opened := match e.cause with
      | .unclosed opening _ openSpan =>
        [⟨false, openSpan, "`" ++ opening.toString ++ "` opened here"⟩]
      | _ => []
    ⟨true, e.span, remark⟩ :: opened
  notes := []
  suggestions := e.help

end ParseError

end Destructure

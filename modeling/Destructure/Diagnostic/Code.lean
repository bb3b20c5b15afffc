/-!
# Destructure.Diagnostic.Code

The codes under which errors can be looked up. The first digit is the phase: 1 for reading a
pattern, 3 for matching and dispatch.
-/

namespace Destructure

/-- A class of errors. -/
inductive Code where
  | unexpectedCharacter
  | unexpectedEnd
  | unclosedDelimiter
  | invalidIdentifier
  | blankNotAllowed
  | reservedConstructor
  | reservedKey
  | unterminatedString
  | invalidNumber
  | trailingInput
  | invalidPattern
  | notCaseClass
  | nonExhaustive
  deriving DecidableEq, Inhabited, Repr

namespace Code

/-- Every code, in the order of their numbers. -/
def all : List Code :=
  [unexpectedCharacter, unexpectedEnd, unclosedDelimiter, invalidIdentifier, blankNotAllowed,
   reservedConstructor, reservedKey, unterminatedString, invalidNumber, trailingInput,
   invalidPattern, notCaseClass, nonExhaustive]

/-- The code as it is printed. -/
def text : Code → String
  | unexpectedCharacter => "E1001"
  | unexpectedEnd => "E1002"
  | unclosedDelimiter => "E1003"
  | invalidIdentifier => "E1004"
  | blankNotAllowed => "E1005"
  | reservedConstructor => "E1006"
  | reservedKey => "E1007"
  | unterminatedString => "E1008"
  | invalidNumber => "E1009"
  | trailingInput => "E1010"
  | invalidPattern => "E3001"
  | notCaseClass => "E3002"
  | nonExhaustive => "E3003"

/-- The class of errors in a few words. -/
def description : Code → String
  | unexpectedCharacter => "unexpected character in pattern"
  | unexpectedEnd => "unexpected end of pattern"
  | unclosedDelimiter => "unclosed delimiter"
  | invalidIdentifier => "invalid identifier"
  | blankNotAllowed => "blank element not allowed here"
  | reservedConstructor => "reserved word used as constructor name"
  | reservedKey => "reserved word used as object key"
  | unterminatedString => "unterminated string literal"
  | invalidNumber => "invalid number literal"
  | trailingInput => "trailing input after pattern"
  | invalidPattern => "invalid pattern in match arm"
  | notCaseClass => "value is not a case class instance"
  | nonExhaustive => "non-exhaustive match"

end Code

end Destructure

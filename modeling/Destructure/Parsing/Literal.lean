import Destructure.Double.Shortest
import Destructure.Parsing.Step
import Destructure.Pattern.Basic
import Destructure.Text.Quoted
import Destructure.Text.Word

/-!
# Destructure.Parsing.Literal

Words, numbers and strings.

A number is never cut short: the run of digits, points and letters that starts with its first digit
is read as a whole or refused as a whole, so `1.25` and `12abc` are no number with a rest.
-/

namespace Destructure

open Text

/-! ### Words -/

/-- A word, of which the first character must be one that starts words. -/
def parseWord (c : Cursor) : Step String c :=
  match c.current with
  | some x =>
    if isWordStart x then
      .done (String.ofList (c.ahead.takeWhile isWordPart)) (c.skipWhile isWordPart)
        (c.le_skipWhile _)
    else .fail (.here (.invalidIdentifier x) c) c c.le_refl
  | none => .fail (.unexpected "an identifier" c) c c.le_refl

/-- What a word stands for where a pattern may be: the wildcard, a constant or a binder. -/
def Pattern.ofWord (w : String) : Pattern :=
  if w = "_" then .wildcard
  else match Constant.ofWord? w with
    | some c => .constant c
    | none => .binder w

/-! ### Numbers -/

/-- May `c` stand in a run that starts like a number? -/
def isNumberPart (c : Char) : Bool := c == '.' || isWordPart c

/-- The decimal that a whole run spells: digits, then at most a point with one digit, then at most
an exponent. -/
def decimal? (run : List Char) : Option Decimal :=
  let whole := run.takeWhile Char.isDigit
  if whole.isEmpty then none
  else match run.dropWhile Char.isDigit with
    | [] => some ⟨Nat.ofDigitChars 10 whole 0, 0⟩
    | ['.', t] =>
      if t.isDigit then some ⟨Nat.ofDigitChars 10 (whole ++ [t]) 0, -1⟩ else none
    | '.' :: t :: 'e' :: e =>
      if t.isDigit ∧ e ≠ [] ∧ e.all Char.isDigit then
        some ⟨Nat.ofDigitChars 10 (whole ++ [t]) 0, (Nat.ofDigitChars 10 e 0 : Int) - 1⟩
      else none
    | _ => none

/-- The number that a whole run spells. One that is too large has no spelling. -/
def number? (run : List Char) : Option Double :=
  (decimal? run).bind fun d =>
    let value := Double.ofDecimal d.digits d.scale
    if value.isFinite then some value else none

/-- A number, at its first digit. -/
def parseNumber (c : Cursor) : Step Pattern c :=
  let run := c.ahead.takeWhile isNumberPart
  let d := c.skipWhile isNumberPart
  have hd : c ≤ d := c.le_skipWhile _
  match number? run with
  | some value => .done (.number value) d hd
  | none =>
    .fail ((ParseError.between (.invalidNumber (String.ofList run)) c d).within .number) d hd

/-! ### Strings -/

/-- A string literal, at its opening quote. -/
def parseString (quote : Char) (c : Cursor) : Step Pattern c :=
  let d := c.advance
  have hd : c ≤ d := c.le_advance
  match h : body? quote d.ahead with
  | some (body, rest) =>
    have h' : d.ahead = (body ++ [quote]) ++ rest := by simp [eq_of_body? h]
    .done (.string (String.ofList (unescape body))) (d.past _ rest h')
      (c.le_trans hd (Cursor.le_past h'))
  | none =>
    .fail ((ParseError.between (.unterminatedString quote) c c.toEnd).within .string) c.toEnd
      c.le_toEnd

end Destructure

import Destructure.Double.Shortest
import Destructure.Text.Debug
import Destructure.Value.Basic

/-!
# Destructure.Value.Text

Two texts of a value: one that looks like a literal, for messages, and one that names the kind of
every part, for debugging. An instance shows its constructor arguments in both.
-/

namespace Destructure.Value

/-- Numbers in the text of a value. -/
def numberNames : NumberNames := ⟨"NaN", "Infinity"⟩

/-- Numbers in the debug text of a value. -/
def debugNumberNames : NumberNames := ⟨"NaN", "inf"⟩

/-- Texts with a comma and a blank between them. -/
def commaSeparated (parts : List String) : String := String.intercalate ", " parts

mutual

/-- The value as a literal. -/
def text : Value → String
  | undefined => "undefined"
  | null => "null"
  | bool b => if b then "true" else "false"
  | number d => d.text numberNames
  | string s => Text.debugQuoted s
  | array _ items => "[" ++ commaSeparated (textList items) ++ "]"
  | object _ tag properties =>
    (match tag with
      | some t => t ++ " "
      | none => "")
      ++ "\x7b" ++ commaSeparated (textProperties properties) ++ "\x7d"
  | inst _ cls arguments _ => cls.name ++ "(" ++ commaSeparated (textList arguments) ++ ")"

/-- The items of an array, or constructor arguments. -/
def textList : List Value → List String
  | [] => []
  | v :: vs => v.text :: textList vs

/-- Properties, each with its key as it is. -/
def textProperties : List (String × Value) → List String
  | [] => []
  | (key, v) :: ps => (key ++ ": " ++ v.text) :: textProperties ps

end

mutual

/-- The value with the kinds of all its parts. -/
def debugText : Value → String
  | undefined => "Undefined"
  | null => "Null"
  | bool b => if b then "Bool(true)" else "Bool(false)"
  | number d => "Number(" ++ d.text debugNumberNames ++ ")"
  | string s => "Str(" ++ Text.debugQuoted s ++ ")"
  | array _ items => "Array([" ++ commaSeparated (debugTextList items) ++ "])"
  | object _ tag properties =>
    "Object("
      ++ (match tag with
        | some t => t ++ ", "
        | none => "")
      ++ "\x7b" ++ commaSeparated (debugTextProperties properties) ++ "\x7d)"
  | inst _ cls arguments _ =>
    "Instance(" ++ cls.name ++ "[" ++ commaSeparated (debugTextList arguments) ++ "])"

/-- The items of an array, or constructor arguments. -/
def debugTextList : List Value → List String
  | [] => []
  | v :: vs => v.debugText :: debugTextList vs

/-- Properties, each with its key in quotes. -/
def debugTextProperties : List (String × Value) → List String
  | [] => []
  | (key, v) :: ps => (Text.debugQuoted key ++ ": " ++ v.debugText) :: debugTextProperties ps

end

end Destructure.Value

import Destructure.Diagnostic.Basic
import Destructure.Diagnostic.Underline

/-!
# Destructure.Diagnostic.Rendering

Diagnostics drawn under the text that they point into, with or without colours.

Patterns are one-liners as a rule, so no file or line number is given: each label repeats the line
it is about and underlines its span.
-/

namespace Destructure

/-- When to use colours. -/
inductive ColorMode where
  /-- Only on a terminal. -/
  | auto
  | always
  | never
  deriving DecidableEq, Inhabited, Repr

/-- Are colours used when the output is a terminal, or is none? -/
def ColorMode.usesColors (mode : ColorMode) (isTerminal : Bool) : Bool :=
  match mode with
  | .auto => isTerminal
  | .always => true
  | .never => false

namespace Diagnostic

/-- What a part of the report is coloured as. -/
inductive Paint where
  | error
  | note
  | help
  | secondary
  deriving DecidableEq, Repr

/-- The terminal's code for a bold colour: red, cyan, green and blue. -/
def Paint.code : Paint → String
  | error => "\x1b[1;31m"
  | note => "\x1b[1;36m"
  | help => "\x1b[1;32m"
  | secondary => "\x1b[1;34m"

/-- The text in a colour, if colours are used. -/
def Paint.on (paint : Paint) (colors : Bool) (s : String) : String :=
  if colors then paint.code ++ s ++ "\x1b[0m" else s

/-- The line that a label is about, and the line that underlines its span. -/
def renderLabel (colors : Bool) (source : List Char) (l : Label) : String :=
  let u := Underline.locate source l.span
  let mark := if l.isPrimary then '^' else '-'
  let paint := if l.isPrimary then Paint.error else Paint.secondary
  "  | " ++ String.ofList u.line ++ "\n"
    ++ "  | " ++ String.ofList (List.replicate u.column ' ')
    ++ paint.on colors (String.ofList (List.replicate u.width mark))
    ++ (if l.message.isEmpty then "\n" else " " ++ l.message ++ "\n")

/-- A remark after the labels. -/
def renderRemark (colors : Bool) (paint : Paint) (kind remark : String) : String :=
  "  = " ++ paint.on colors kind ++ ": " ++ remark ++ "\n"

/-- The report with the lines of `source` that it points into. -/
def render (colors : Bool) (source : String) (d : Diagnostic) : String :=
  Paint.error.on colors "error" ++ " [" ++ d.code.text ++ "]: " ++ d.message ++ "\n"
    ++ String.join (d.labels.map (renderLabel colors source.toList))
    ++ String.join (d.notes.map (renderRemark colors .note "note"))
    ++ String.join (d.suggestions.map (renderRemark colors .help "help"))

end Diagnostic

end Destructure

import Destructure.Diagnostic.Code
import Destructure.Span

/-!
# Destructure.Diagnostic.Basic

Diagnostics: everything that a report about an error needs, and the report as plain lines. How a
diagnostic is drawn under the text it points into is the matter of
`Destructure.Diagnostic.Rendering`.
-/

namespace Destructure

/-- A remark about a stretch of the text. -/
structure Label where
  /-- The stretch that the error is about, or one that explains it? -/
  isPrimary : Bool
  span : Span
  message : String
  deriving DecidableEq, Repr

/-- A report about one error. -/
structure Diagnostic where
  code : Code
  message : String
  labels : List Label
  /-- Remarks that point to no part of the text. -/
  notes : List String
  /-- Ways to mend the error. -/
  suggestions : List String
  deriving DecidableEq, Repr

namespace Diagnostic

/-- The span of the first primary label. -/
def primarySpan? (d : Diagnostic) : Option Span := (d.labels.find? (·.isPrimary)).map (·.span)

/-- Add a note after the others. -/
def addNote (d : Diagnostic) (note : String) : Diagnostic := { d with notes := d.notes ++ [note] }

/-- A label as a line of its own: an arrow marks the primary ones. -/
def labelLine (l : Label) : String :=
  "\n  " ++ (if l.isPrimary then "-->" else "   ") ++ " " ++ l.span.text ++ ": " ++ l.message

/-- The report as lines, without the text that it points into. -/
def text (d : Diagnostic) : String :=
  "error [" ++ d.code.text ++ "]: " ++ d.message
    ++ String.join (d.labels.map labelLine)
    ++ String.join (d.notes.map ("\n  = note: " ++ ·))
    ++ String.join (d.suggestions.map ("\n  = help: " ++ ·))

end Diagnostic

end Destructure

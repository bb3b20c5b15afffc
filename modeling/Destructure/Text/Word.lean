/-!
# Destructure.Text.Word

Words: what names of binders, constructors and properties are made of. They are ASCII, also in a
text that is not.
-/

namespace Destructure.Text

/-- May a word start with `c`? -/
def isWordStart (c : Char) : Bool := c.isAlpha || c == '_' || c == '$'

/-- May `c` stand in a word after its start? -/
def isWordPart (c : Char) : Bool := c.isAlphanum || c == '_' || c == '$'

theorem isWordPart_of_isWordStart {c : Char} (h : isWordStart c = true) : isWordPart c = true := by
  simp only [isWordStart, isWordPart, Char.isAlphanum, Bool.or_eq_true] at *
  rcases h with (h | h) | h <;> simp [h]

/-- Is the text a word as a whole? -/
def isWord (s : String) : Bool :=
  match s.toList with
  | [] => false
  | c :: r => isWordStart c && r.all isWordPart

end Destructure.Text

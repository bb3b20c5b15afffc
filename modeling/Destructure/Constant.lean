/-!
# Destructure.Constant

The constants that are spelled as bare words.
-/

namespace Destructure

/-- A literal that is a word of its own. Its word is reserved: no binder can have that name. -/
inductive Constant where
  | true
  | false
  | null
  | undefined
  deriving DecidableEq, Inhabited, Repr

namespace Constant

/-- The word that the constant is written as. -/
def word : Constant → String
  | .true => "true"
  | .false => "false"
  | .null => "null"
  | .undefined => "undefined"

/-- The constant that a word stands for; none for an ordinary name. -/
def ofWord? (w : String) : Option Constant :=
  [Constant.true, .false, .null, .undefined].find? fun c => c.word == w

theorem ofWord?_word (c : Constant) : ofWord? c.word = some c := by
  cases c <;> decide

theorem ofWord?_eq_some {w : String} {c : Constant} : ofWord? w = some c ↔ w = c.word := by
  constructor
  · intro h
    have h' := List.find?_some h
    exact (beq_iff_eq.1 h').symm
  · rintro rfl
    exact ofWord?_word c

end Constant

/-- May no binder and no constructor have this name? So it is with the words of the constants, and
with `_`, which stands for any value. -/
def isReserved (w : String) : Bool := w == "_" || (Constant.ofWord? w).isSome

end Destructure

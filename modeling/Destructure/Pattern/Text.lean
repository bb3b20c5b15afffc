import Destructure.Double.Shortest
import Destructure.Pattern.Basic
import Destructure.Text.Quoted

/-!
# Destructure.Pattern.Text

The canonical text of a pattern. There is one for every tree, also for a tree that no text is read
as: then reading it gives another tree or an error.

Design points:

* A separator before the closing bracket adds no slot, so an array that ends in a blank gets one
  separator more.
* Every function here writes in front of a text that is already there. So writing takes one pass,
  and what is written can be read with anything after it.
-/

namespace Destructure

/-- Numbers in patterns. No pattern text names what is not finite, so these names are only shown. -/
def Pattern.numberNames : NumberNames := ⟨"NaN", "inf"⟩

mutual

/-- The canonical text of a pattern, in front of `rest`. -/
def Pattern.write : Pattern → List Char → List Char
  | .array elements, rest => '[' :: Pattern.writeList elements (']' :: rest)
  | .object entries, rest => '\x7b' :: Entry.writeList entries ('\x7d' :: rest)
  | .tagged name arguments, rest => name.toList ++ '(' :: arguments.write (')' :: rest)
  | .binder name, rest => name.toList ++ rest
  | .constant c, rest => c.word.toList ++ rest
  | .number d, rest => (d.text Pattern.numberNames).toList ++ rest
  | .string s, rest => '"' :: (Text.escape s.toList ++ '"' :: rest)
  | .wildcard, rest => '_' :: rest
  | .blank, rest => rest

/-- The elements of an array between its brackets. -/
def Pattern.writeList : List Pattern → List Char → List Char
  | [], rest => rest
  | [.blank], rest => ',' :: rest
  | [p], rest => p.write rest
  | p :: q :: ps, rest => p.write (',' :: ' ' :: Pattern.writeList (q :: ps) rest)

/-- An entry: its key, and its pattern if it is written out. -/
def Entry.write : Entry → List Char → List Char
  | .shorthand key, rest => key.toList ++ rest
  | .explicit key p, rest => key.toList ++ ':' :: ' ' :: p.write rest

/-- The entries of an object between its brackets. -/
def Entry.writeList : List Entry → List Char → List Char
  | [], rest => rest
  | [e], rest => e.write rest
  | e :: f :: es, rest => e.write (',' :: ' ' :: Entry.writeList (f :: es) rest)

/-- The arguments of a constructor pattern between its parentheses. -/
def Arguments.write : Arguments → List Char → List Char
  | .unspecified, rest => rest
  | .positional elements, rest => '[' :: Pattern.writeList elements (']' :: rest)
  | .keyed entries, rest => '\x7b' :: Entry.writeList entries ('\x7d' :: rest)

end

/-- The canonical text of a pattern. -/
def Pattern.text (p : Pattern) : String := String.ofList (p.write [])

end Destructure

import Destructure.Constant
import Destructure.Double.Basic

/-!
# Destructure.Pattern.Basic

Patterns: trees that say what a value must look like and which of its parts get a name.

Design points:

* A pattern, an entry of an object pattern and the arguments of a constructor pattern are one mutual
  family. Functions on it come as a group of the same shape, with one function for a list of
  elements and one for a list of entries.
* `blank` is a pattern of its own, since an empty slot keeps its place in an array. Only the text
  tells it from `wildcard`: both match anything.
* Equality compares numbers as numbers, so a pattern that holds NaN differs from itself.
-/

namespace Destructure

mutual

/-- What a value must look like. -/
inductive Pattern where
  /-- An array of exactly this length, element by element. -/
  | array (elements : List Pattern)
  /-- A value that has every key. -/
  | object (entries : List Entry)
  /-- A value with this type tag, and with these arguments if there are any. -/
  | tagged (name : String) (arguments : Arguments)
  /-- Any value, which gets this name. -/
  | binder (name : String)
  /-- A constant spelled as a word. -/
  | constant (value : Constant)
  /-- A number. -/
  | number (value : Double)
  /-- A text. -/
  | string (value : String)
  /-- Any value. -/
  | wildcard
  /-- Any value, in a slot of an array that was left empty. -/
  | blank

/-- One key of an object pattern. -/
inductive Entry where
  /-- The property gets the key as its name. -/
  | shorthand (key : String)
  /-- The property must match a pattern of its own. -/
  | explicit (key : String) (pattern : Pattern)

/-- The arguments of a constructor pattern. -/
inductive Arguments where
  /-- None are asked for; the type tag alone decides. -/
  | unspecified
  /-- The constructor arguments of a case-class instance, by position. -/
  | positional (elements : List Pattern)
  /-- The properties of the value, by key. -/
  | keyed (entries : List Entry)

end

instance : Inhabited Pattern := ⟨.wildcard⟩
instance : Inhabited Entry := ⟨.shorthand ""⟩
instance : Inhabited Arguments := ⟨.unspecified⟩

namespace Entry

/-- The property that the entry asks for. -/
def key : Entry → String
  | shorthand key => key
  | explicit key _ => key

/-- The pattern for the property, if it is written out. -/
def pattern? : Entry → Option Pattern
  | shorthand _ => none
  | explicit _ pattern => some pattern

end Entry

namespace Pattern

/-- The kind of a pattern, as messages call it. -/
def kindName : Pattern → String
  | array _ => "array"
  | object _ => "object"
  | tagged _ _ => "function"
  | binder _ => "identifier"
  | constant _ => "special identifier"
  | number _ => "number"
  | string _ => "string"
  | wildcard => "wildcard"
  | blank => "blank"

end Pattern

/-! ### Binders -/

mutual

/-- The names that a match binds, in the order in which it binds them. A name that stands twice is
listed twice; the later capture is the one that a match keeps. -/
def Pattern.binders : Pattern → List String
  | .array elements => Pattern.bindersList elements
  | .object entries => Entry.bindersList entries
  | .tagged _ arguments => arguments.binders
  | .binder name => [name]
  | .constant _ | .number _ | .string _ | .wildcard | .blank => []

/-- The names that the elements of an array bind. -/
def Pattern.bindersList : List Pattern → List String
  | [] => []
  | p :: ps => p.binders ++ Pattern.bindersList ps

/-- The names that an entry binds. -/
def Entry.binders : Entry → List String
  | .shorthand key => [key]
  | .explicit _ p => p.binders

/-- The names that the entries of an object bind. -/
def Entry.bindersList : List Entry → List String
  | [] => []
  | e :: es => e.binders ++ Entry.bindersList es

/-- The names that constructor arguments bind. -/
def Arguments.binders : Arguments → List String
  | .unspecified => []
  | .positional elements => Pattern.bindersList elements
  | .keyed entries => Entry.bindersList entries

end

/-! ### Equality -/

mutual

/-- The same shape, names and literals, where numbers compare as numbers. -/
def Pattern.sameAs : Pattern → Pattern → Bool
  | .array ps, .array qs => Pattern.sameAsList ps qs
  | .object es, .object fs => Entry.sameAsList es fs
  | .tagged m as, .tagged n bs => m == n && as.sameAs bs
  | .binder m, .binder n => m == n
  | .constant a, .constant b => a == b
  | .number a, .number b => a == b
  | .string a, .string b => a == b
  | .wildcard, .wildcard => true
  | .blank, .blank => true
  | _, _ => false

/-- Equal length and equal elements. -/
def Pattern.sameAsList : List Pattern → List Pattern → Bool
  | [], [] => true
  | p :: ps, q :: qs => p.sameAs q && Pattern.sameAsList ps qs
  | _, _ => false

/-- Entries of the same kind with equal keys and patterns. -/
def Entry.sameAs : Entry → Entry → Bool
  | .shorthand j, .shorthand k => j == k
  | .explicit j p, .explicit k q => j == k && p.sameAs q
  | _, _ => false

/-- Equal length and equal entries. -/
def Entry.sameAsList : List Entry → List Entry → Bool
  | [], [] => true
  | e :: es, f :: fs => e.sameAs f && Entry.sameAsList es fs
  | _, _ => false

/-- Arguments of the same kind with equal contents. -/
def Arguments.sameAs : Arguments → Arguments → Bool
  | .unspecified, .unspecified => true
  | .positional ps, .positional qs => Pattern.sameAsList ps qs
  | .keyed es, .keyed fs => Entry.sameAsList es fs
  | _, _ => false

end

instance : BEq Pattern := ⟨Pattern.sameAs⟩

end Destructure

import Destructure.Parsing.Literal
import Destructure.Proofs.Double.Rounding

/-!
# Destructure.Proofs.Parsing.Grammar

The language of patterns, as a relation between trees and texts that mentions no parser.

    pattern   := '[' slots ']' | '{' entries '}' | name '(' arguments ')' | word | number | string
    slots     := slot (',' slot)*
    slot      := pattern?
    entries   := (entry (',' entry)* ','?)?
    entry     := name | key ':' pattern
    arguments := ('[' slots ']' | '{' entries '}')?

White space may stand between any two tokens and around the whole. An empty slot is a blank, except
for the last one, which is no slot.

Design points:

* `Derives` has one phrase for each nonterminal, so a proof about the language is one induction with
  a case for each rule.
* A numeral spells a decimal, and a pattern holds the double next to it: `Decimal.RoundsTo` says
  which one that is and does not compute it.
-/

namespace Destructure

open Text

/-- White space, and as much of it as one likes. -/
def Spaces (w : List Char) : Prop := ∀ c ∈ w, isSpace c = true

/-! ### Numbers -/

def IsDigits (s : List Char) : Prop := s ≠ [] ∧ ∀ c ∈ s, c.isDigit = true

/-- What spells a decimal: digits, then at most a point with one digit, then at most an exponent. -/
inductive Numeral : List Char → Decimal → Prop where
  | whole {w : List Char} : IsDigits w → Numeral w ⟨Nat.ofDigitChars 10 w 0, 0⟩
  | tenths {w : List Char} {t : Char} : IsDigits w → t.isDigit = true →
      Numeral (w ++ ['.', t]) ⟨Nat.ofDigitChars 10 (w ++ [t]) 0, -1⟩
  | scaled {w e : List Char} {t : Char} : IsDigits w → t.isDigit = true → IsDigits e →
      Numeral (w ++ '.' :: t :: 'e' :: e)
        ⟨Nat.ofDigitChars 10 (w ++ [t]) 0, (Nat.ofDigitChars 10 e 0 : Int) - 1⟩

/-- `d` is the double nearest to the decimal. It has no sign, not even if it is zero. -/
def Decimal.RoundsTo (n : Decimal) (d : Double) : Prop :=
  d.isNegative = false ∧ Double.IsNearest n.value d.magnitude

/-! ### Strings -/

/-- `Escape e c`: after a backslash, `e` stands for `c`. -/
inductive Escape : Char → Char → Prop where
  | newline : Escape 'n' '\n'
  | tab : Escape 't' '\t'
  | return : Escape 'r' '\r'
  | null : Escape '0' '\x00'
  | other {c : Char} : c ∉ ['n', 't', 'r', '0'] → Escape c c

/-- `Quoted quote s v`: between two of these quotes, `s` stands for the text `v`. -/
inductive Quoted (quote : Char) : List Char → List Char → Prop where
  | nil : Quoted quote [] []
  | plain {c : Char} {s v : List Char} : c ≠ quote → c ≠ '\\' → Quoted quote s v →
      Quoted quote (c :: s) (c :: v)
  | escaped {e c : Char} {s v : List Char} : Escape e c → Quoted quote s v →
      Quoted quote ('\\' :: e :: s) (c :: v)

/-! ### Patterns -/

/-- A word that may name a binder or a constructor. -/
def IsName (w : String) : Prop := isWord w = true ∧ isReserved w = false

instance (w : String) : Decidable (IsName w) := inferInstanceAs (Decidable (_ ∧ _))

/-- What a part of a text may spell. -/
inductive Phrase where
  | pattern (p : Pattern)
  | slots (elements : List Pattern)
  | entries (entries : List Entry)
  | entry (e : Entry)
  | arguments (a : Arguments)

/-- `Derives ph s`: the text `s` spells the phrase, with no white space around it unless it stands
between brackets. -/
inductive Derives : Phrase → List Char → Prop where
  | array {ps : List Pattern} {s : List Char} :
      Derives (.slots ps) s → Derives (.pattern (.array ps)) ('[' :: (s ++ [']']))
  | object {es : List Entry} {s : List Char} :
      Derives (.entries es) s → Derives (.pattern (.object es)) ('\x7b' :: (s ++ ['\x7d']))
  | tagged {name : String} {as : Arguments} {u v s w : List Char} :
      IsName name → Spaces u → Spaces v → Derives (.arguments as) s → Spaces w →
      Derives (.pattern (.tagged name as)) (name.toList ++ u ++ '(' :: (v ++ s ++ w ++ [')']))
  | binder {name : String} : IsName name → Derives (.pattern (.binder name)) name.toList
  | constant (c : Constant) : Derives (.pattern (.constant c)) c.word.toList
  | wildcard : Derives (.pattern .wildcard) ['_']
  | number {n : Decimal} {d : Double} {s : List Char} :
      Numeral s n → n.RoundsTo d → d.isFinite = true → Derives (.pattern (.number d)) s
  | string {quote : Char} {s v : List Char} :
      quote = '\'' ∨ quote = '"' → Quoted quote s v →
      Derives (.pattern (.string (String.ofList v))) (quote :: (s ++ [quote]))
  | noSlot {u : List Char} : Spaces u → Derives (.slots []) u
  | lastSlot {p : Pattern} {u s w : List Char} :
      Spaces u → Derives (.pattern p) s → Spaces w → Derives (.slots [p]) (u ++ s ++ w)
  -- A separator closes the slot before it, so `noSlot` after one adds nothing.
  | emptySlot {ps : List Pattern} {u t : List Char} :
      Spaces u → Derives (.slots ps) t → Derives (.slots (.blank :: ps)) (u ++ ',' :: t)
  | filledSlot {p : Pattern} {ps : List Pattern} {u s w t : List Char} :
      Spaces u → Derives (.pattern p) s → Spaces w → Derives (.slots ps) t →
      Derives (.slots (p :: ps)) (u ++ s ++ w ++ ',' :: t)
  | noEntry {u : List Char} : Spaces u → Derives (.entries []) u
  | lastEntry {e : Entry} {u s w : List Char} :
      Spaces u → Derives (.entry e) s → Spaces w → Derives (.entries [e]) (u ++ s ++ w)
  | moreEntries {e : Entry} {es : List Entry} {u s w t : List Char} :
      Spaces u → Derives (.entry e) s → Spaces w → Derives (.entries es) t →
      Derives (.entries (e :: es)) (u ++ s ++ w ++ ',' :: t)
  | shorthand {key : String} : IsName key → Derives (.entry (.shorthand key)) key.toList
  | explicit {key : String} {p : Pattern} {u v s : List Char} :
      isWord key = true → key ≠ "_" → Spaces u → Spaces v → Derives (.pattern p) s →
      Derives (.entry (.explicit key p)) (key.toList ++ u ++ ':' :: (v ++ s))
  | unspecified : Derives (.arguments .unspecified) []
  | positional {ps : List Pattern} {s : List Char} :
      Derives (.slots ps) s → Derives (.arguments (.positional ps)) ('[' :: (s ++ [']']))
  | keyed {es : List Entry} {s : List Char} :
      Derives (.entries es) s → Derives (.arguments (.keyed es)) ('\x7b' :: (s ++ ['\x7d']))

/-- The text spells the pattern, with white space around it. -/
def Pattern.SpelledBy (p : Pattern) (t : List Char) : Prop :=
  ∃ u s w, t = u ++ s ++ w ∧ Spaces u ∧ Derives (.pattern p) s ∧ Spaces w

end Destructure

import Destructure.Value.Basic

/-!
# Destructure.Value.Equality

The two equalities of values.

* `strictEq` is the one that literals in patterns use: primitives are equal by value, and containers
  only if they are one and the same.
* `==` compares contents. Instances are equal if they have the same class and equal arguments; their
  properties follow from these and are not looked at.

Numbers compare as numbers in both, so NaN equals nothing, and neither does a value that holds it.
-/

namespace Destructure.Value

/-- Equal primitives, or the same container. -/
def strictEq : Value → Value → Bool
  | undefined, undefined => true
  | null, null => true
  | bool a, bool b => a == b
  | number a, number b => a == b
  | string a, string b => a == b
  | array i _, array j _ => i == j
  | object i _ _, object j _ _ => i == j
  | inst i _ _ _, inst j _ _ _ => i == j
  | _, _ => false

mutual

/-- Equal contents. -/
def sameAs : Value → Value → Bool
  | undefined, undefined => true
  | null, null => true
  | bool a, bool b => a == b
  | number a, number b => a == b
  | string a, string b => a == b
  | array _ xs, array _ ys => sameAsList xs ys
  | object _ s ps, object _ t qs => s == t && sameAsProperties ps qs
  | inst _ c xs _, inst _ d ys _ => c.identity == d.identity && sameAsList xs ys
  | _, _ => false

/-- Equal length and equal items. -/
def sameAsList : List Value → List Value → Bool
  | [], [] => true
  | x :: xs, y :: ys => sameAs x y && sameAsList xs ys
  | _, _ => false

/-- The same keys with equal values. -/
def sameAsProperties : List (String × Value) → List (String × Value) → Bool
  | [], [] => true
  | (j, x) :: ps, (k, y) :: qs => j == k && sameAs x y && sameAsProperties ps qs
  | _, _ => false

end

instance : BEq Value := ⟨sameAs⟩

end Destructure.Value

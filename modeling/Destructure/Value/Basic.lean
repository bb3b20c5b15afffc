import Destructure.Double.Decimal
import Destructure.Value.Properties
import Destructure.Constant

/-!
# Destructure.Value.Basic

Values, as they are destructured: primitives, arrays, objects with named properties, and instances
of case classes.

Design points:

* Every array, object and instance has an identity of its own, which it gets from a `Supply` when it
  is made and keeps wherever it goes. Two containers with equal contents are told apart by it.
* A value is never changed, so its contents are part of it and no store is needed.
* An instance names its class by identity and name. What else belongs to a class is only needed to
  make instances, and is the matter of `Destructure.Value.CaseClass`.
-/

namespace Destructure

/-- Which container, or which class, a thing is. -/
structure Identity where
  index : Nat
  deriving DecidableEq, Inhabited, Repr

/-- Identities that have not been given away: those from `next` on. -/
structure Supply where
  next : Nat := 0
  deriving DecidableEq, Inhabited, Repr

/-- A computation that makes new things. -/
abbrev Fresh := StateM Supply

/-- An identity that nothing else has. -/
def freshIdentity : Fresh Identity := fun s => (⟨s.next⟩, ⟨s.next + 1⟩)

/-- The class of an instance. Two classes may have the same name. -/
structure ClassName where
  identity : Identity
  name : String
  deriving Inhabited, Repr

/-- A value. -/
inductive Value where
  | undefined
  | null
  | bool (value : Bool)
  | number (value : Double)
  | string (value : String)
  | array (identity : Identity) (items : List Value)
  /-- Named properties, and a type tag of its own if there is one. -/
  | object (identity : Identity) (tag : Option String) (properties : List (String × Value))
  /-- What a class made of these arguments, in their order. -/
  | inst (identity : Identity) (cls : ClassName) (arguments : List Value)
    (properties : List (String × Value))
  deriving Inhabited

namespace Value

/-! ### Making values -/

/-- A new array. -/
def newArray (items : List Value) : Fresh Value := do
  return .array (← freshIdentity) items

/-- A new object. Of two pairs with one key the later counts. -/
def newObject (tag : Option String) (pairs : List (String × Value)) : Fresh Value := do
  return .object (← freshIdentity) tag (Properties.ofList pairs)

/-- The value that a constant stands for. -/
def ofConstant : Constant → Value
  | .true => bool true
  | .false => bool false
  | .null => null
  | .undefined => undefined

/-! ### Looking at values -/

/-- The tag that a constructor pattern must name. An object without a tag has the tag `Object`. -/
def typeTag? : Value → Option String
  | undefined | null => none
  | bool _ => some "Boolean"
  | number _ => some "Number"
  | string _ => some "String"
  | array _ _ => some "Array"
  | object _ tag _ => some (tag.getD "Object")
  | inst _ cls _ _ => some cls.name

/-- The kind of a value, as messages call it. -/
def typeName : Value → String
  | undefined => "undefined"
  | null => "null"
  | bool _ => "boolean"
  | number _ => "number"
  | string _ => "string"
  | array _ _ => "array"
  | object _ _ _ => "object"
  | inst _ _ _ _ => "instance"

/-- Can the value be asked for properties? -/
def isKeyed : Value → Bool
  | array _ _ | object _ _ _ | inst _ _ _ _ => true
  | _ => false

/-- The property under a key. An array has its length and nothing else. -/
def property? (key : String) : Value → Option Value
  | object _ _ properties => Properties.lookup key properties
  | inst _ _ _ properties => Properties.lookup key properties
  | array _ items => if key = "length" then some (number (.ofNat items.length)) else none
  | _ => none

def asBool? : Value → Option Bool
  | bool b => some b
  | _ => none

def asNumber? : Value → Option Double
  | number d => some d
  | _ => none

def asString? : Value → Option String
  | string s => some s
  | _ => none

def asArray? : Value → Option (List Value)
  | array _ items => some items
  | _ => none

end Value

end Destructure

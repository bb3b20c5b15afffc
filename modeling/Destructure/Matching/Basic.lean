import Destructure.Bindings
import Destructure.Matching.Error
import Destructure.Pattern.Basic

/-!
# Destructure.Matching.Basic

Matching a value against a pattern, which yields names for its parts.

    pattern           matches                                binds
    [p, ...]          an array of the same length            what its elements bind
    {k: p, l}         a value with every key                 what `p` binds, and l
    Name(...)         a value tagged `Name`                  what its arguments bind
    x                 any value                              x
    a literal         a strictly equal value                 nothing
    _                 any value                              nothing

Design points:

* A pattern is a row of tests, from left to right and from the outside in. The first test that fails
  decides: nothing after it is looked at.
* An attempt ends with a verdict, which names the test that failed, and with the bindings made so
  far, which are kept if the match was into bindings of the caller.
* Constructor arguments by position exist only on instances. Asking any other value with the right
  tag for them is misuse, which is neither a match nor a mismatch.
-/

namespace Destructure

/-- The test that a value has failed. -/
inductive Mismatch where
  /-- It is no array, but of the kind `found`. -/
  | notArray (found : String)
  /-- It has another number of items or arguments. -/
  | wrongLength (expected found : Nat)
  /-- It is of a kind that has no properties. -/
  | notKeyed (found : String)
  /-- It has another type tag, or none. -/
  | wrongTag (expected : String) (found : Option String)
  /-- It lacks a property. -/
  | missingKey (key : String)
  /-- It differs from a literal. -/
  | otherLiteral
  deriving DecidableEq, Repr

/-- How an attempt ended. -/
inductive Verdict where
  | matched
  | mismatch (why : Mismatch)
  /-- A value with this type tag has no constructor arguments. -/
  | misuse (typeName : String)
  deriving DecidableEq, Repr

/-- An attempt to match: its verdict, and the bindings at its end. -/
structure Attempt where
  verdict : Verdict
  bindings : Bindings

namespace Attempt

/-- Go on from the bindings made so far, if all has matched. -/
def andThen (a : Attempt) (next : Bindings → Attempt) : Attempt :=
  match a.verdict with
  | .matched => next a.bindings
  | _ => a

/-- A test that binds nothing. -/
def test (holds : Bool) (why : Mismatch) (b : Bindings) : Attempt :=
  ⟨if holds then .matched else .mismatch why, b⟩

end Attempt

mutual

/-- Match a value, starting from the bindings `b`. -/
def Pattern.attempt : Pattern → Value → Bindings → Attempt
  | .array elements, v, b =>
    match v with
    | .array _ items =>
      if elements.length = items.length then Pattern.attemptList elements items b
      else ⟨.mismatch (.wrongLength elements.length items.length), b⟩
    | _ => ⟨.mismatch (.notArray v.typeName), b⟩
  | .object entries, v, b =>
    if v.isKeyed then Entry.attemptList entries v b else ⟨.mismatch (.notKeyed v.typeName), b⟩
  | .tagged name arguments, v, b =>
    if v.typeTag? = some name then arguments.attempt name v b
    else ⟨.mismatch (.wrongTag name v.typeTag?), b⟩
  | .binder name, v, b => ⟨.matched, b.insert name v⟩
  | .constant c, v, b => .test (v.strictEq (.ofConstant c)) .otherLiteral b
  | .number d, v, b => .test (v.strictEq (.number d)) .otherLiteral b
  | .string s, v, b => .test (v.strictEq (.string s)) .otherLiteral b
  | .wildcard, _, b => ⟨.matched, b⟩
  | .blank, _, b => ⟨.matched, b⟩

/-- Match values one by one. -/
def Pattern.attemptList : List Pattern → List Value → Bindings → Attempt
  | p :: ps, v :: vs, b => (p.attempt v b).andThen fun b => Pattern.attemptList ps vs b
  | _, _, b => ⟨.matched, b⟩

/-- Match the property that an entry asks for. -/
def Entry.attempt : Entry → Value → Bindings → Attempt
  | .shorthand key, v, b =>
    match v.property? key with
    | some property => ⟨.matched, b.insert key property⟩
    | none => ⟨.mismatch (.missingKey key), b⟩
  | .explicit key p, v, b =>
    match v.property? key with
    | some property => p.attempt property b
    | none => ⟨.mismatch (.missingKey key), b⟩

/-- Match the properties that entries ask for, one by one. -/
def Entry.attemptList : List Entry → Value → Bindings → Attempt
  | [], _, b => ⟨.matched, b⟩
  | e :: es, v, b => (e.attempt v b).andThen fun b => Entry.attemptList es v b

/-- Match the constructor arguments or the properties of a value with the right type tag. -/
def Arguments.attempt : Arguments → String → Value → Bindings → Attempt
  -- Without arguments the type tag was the only test.
  | .unspecified, _, _, b => ⟨.matched, b⟩
  | .positional elements, name, v, b =>
    match v with
    | .inst _ _ arguments _ =>
      if elements.length = arguments.length then Pattern.attemptList elements arguments b
      else ⟨.mismatch (.wrongLength elements.length arguments.length), b⟩
    | _ => ⟨.misuse name, b⟩
  | .keyed entries, _, v, b =>
    if v.isKeyed then Entry.attemptList entries v b else ⟨.mismatch (.notKeyed v.typeName), b⟩

end

/-- Did the attempt match? Misuse is an error. -/
def Attempt.outcome (a : Attempt) : Except MatchError Bool :=
  match a.verdict with
  | .matched => .ok true
  | .mismatch _ => .ok false
  | .misuse typeName => .error (.notCaseClass typeName)

/-- Match into bindings. They are given back with everything bound before a test failed. -/
def Pattern.matchInto (p : Pattern) (v : Value) (b : Bindings) :
    Except MatchError Bool × Bindings :=
  let a := p.attempt v b
  (a.outcome, a.bindings)

/-- The bindings of a match that starts from none; nothing if the value does not match. -/
def Pattern.tryMatch (p : Pattern) (v : Value) : Except MatchError (Option Bindings) :=
  let a := p.attempt v .empty
  a.outcome.map fun matched => if matched then some a.bindings else none

end Destructure

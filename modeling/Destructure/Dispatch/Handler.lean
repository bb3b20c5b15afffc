import Destructure.Bindings

/-!
# Destructure.Dispatch.Handler

What an arm does with a value that its pattern matches. Guards and callbacks are functions of the
bindings and the value, and whenever one is consulted that is noted.
-/

namespace Destructure

/-- Where the result of an arm comes from. -/
inductive Handler (α : Type) where
  /-- It is fixed. -/
  | value (result : α)
  /-- It is computed from the bindings and the matched value. -/
  | call (result : Bindings → Value → α)
  /-- It is that of an inner handler, which is asked only if a condition holds. -/
  | guarded (condition : Bindings → Value → Bool) (inner : Handler α)

/-- A guard or a callback that was consulted, and with what. -/
inductive Consultation where
  | guard (bindings : Bindings) (value : Value) (holds : Bool)
  | call (bindings : Bindings) (value : Value)

namespace Handler

variable {α : Type}

def isGuarded : Handler α → Bool
  | guarded _ _ => true
  | _ => false

/-- The result, or nothing if a guard rejects the match. Guards are asked from the outside in, and
none after the first that rejects. -/
def invoke : Handler α → Bindings → Value → Option α × List Consultation
  | value result, _, _ => (some result, [])
  | call result, b, v => (some (result b v), [.call b v])
  | guarded condition inner, b, v =>
    if condition b v then
      let r := inner.invoke b v
      (r.1, .guard b v true :: r.2)
    else (none, [.guard b v false])

/-- The handler as it is shown when debugging, without what it computes. -/
def debugText : Handler α → String
  | value _ => "Value(..)"
  | call _ => "Call(..)"
  | guarded _ inner => "Guarded(" ++ inner.debugText ++ ")"

end Handler

end Destructure

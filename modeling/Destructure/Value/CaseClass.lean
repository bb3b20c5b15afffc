import Destructure.Value.Basic

/-!
# Destructure.Value.CaseClass

Case classes: they make values out of constructor arguments. An instance remembers its class and its
arguments, so a pattern can take it apart by position, and it has the properties that the class has
computed from the arguments, so a pattern can take it apart by key.
-/

namespace Destructure

/-- A case class: its name, and the properties that it computes from constructor arguments. An
initializer may make new containers. -/
structure CaseClass where
  identity : Identity
  name : String
  propertiesOf : List Value → Fresh (List (String × Value))

namespace CaseClass

/-- A new class with an initializer, which gives properties in any order. -/
def define (name : String) (properties : List Value → Fresh (List (String × Value))) :
    Fresh CaseClass := do
  return ⟨← freshIdentity, name, fun arguments => return Properties.ofList (← properties arguments)⟩

/-- The value of each field: the argument at its position, or undefined. -/
def fieldValues : List String → List Value → List (String × Value)
  | [], _ => []
  | f :: fs, [] => (f, .undefined) :: fieldValues fs []
  | f :: fs, a :: arguments => (f, a) :: fieldValues fs arguments

/-- A new class that stores its arguments under these fields, in order. Arguments beyond the fields
are kept as constructor arguments only. -/
def withFields (name : String) (fields : List String) : Fresh CaseClass :=
  define name fun arguments => return fieldValues fields arguments

/-- How instances name the class. -/
def className (c : CaseClass) : ClassName := ⟨c.identity, c.name⟩

/-- A new instance. -/
def construct (c : CaseClass) (arguments : List Value) : Fresh Value := do
  let properties ← c.propertiesOf arguments
  return .inst (← freshIdentity) c.className arguments properties

/-- The same class, and not only one of the same name. -/
instance : BEq CaseClass := ⟨fun c d => c.identity == d.identity⟩

end CaseClass

/-- A class as it is shown when debugging. -/
def ClassName.debugText (c : ClassName) : String := "CaseClass(" ++ c.name ++ ")"

end Destructure

import Stubwright.Java.JavaType

/-!
# Members

A member is a method as a type exposes it. Two members compete for the same place in a class when
their keys agree: the name and the parameter types, by binary name.
-/

namespace Stubwright.Java

/-- A parameter of a member. -/
structure Parameter where
  name : String
  type : JavaType
  deriving DecidableEq, Repr, Inhabited

/-- The name of a parameter that was given none, by its position. -/
def Parameter.defaultName (index : Nat) : String := "arg" ++ toString index

/-- What tells one member from another: the name and the parameter types. -/
structure MemberKey where
  name : String
  parameterTypes : List String
  deriving DecidableEq, Repr, Inhabited

/-- The key as shown in messages: `scale(double, int)`. -/
def MemberKey.text (key : MemberKey) : String :=
  key.name ++ "(" ++ ", ".intercalate key.parameterTypes ++ ")"

/-- A method as its type exposes it. -/
structure Member where
  name : String
  returns : JavaType
  parameters : List Parameter := []
  /-- The checked exceptions, in declaration order. -/
  exceptions : List JavaType := []
  /-- Annotation texts, written above the member as they stand. -/
  annotations : List String := []
  isStatic : Bool := false
  isFinal : Bool := false
  deriving DecidableEq, Repr, Inhabited

namespace Member

/-- The key of the member. -/
def key (m : Member) : MemberKey := ⟨m.name, m.parameters.map (·.type.binaryName)⟩

/-- Whether an implementing class can override the member. -/
def isImplementable (m : Member) : Bool := !m.isStatic && !m.isFinal

end Member
end Stubwright.Java

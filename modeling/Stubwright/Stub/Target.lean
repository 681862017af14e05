import Stubwright.Library.Basic
import Stubwright.Stub.Error

/-!
# Targets

The type a stub implements. Interfaces and classes that are not final can be implemented; primitive
types, arrays, final classes and types without a name cannot.
-/

namespace Stubwright.Stub

open Java

/-- Why a type cannot be implemented. -/
inductive TargetDefect where
  | nameless
  | primitive
  | array
  | finalClass
  deriving DecidableEq, Repr

/-- The wording of a defect. -/
def TargetDefect.message : TargetDefect → String
  | nameless => "no target type given"
  | primitive => "primitive types have no members to implement"
  | array => "array types have no members to implement"
  | finalClass => "final classes cannot be extended"

/-- Whether a name has no characters but blanks. -/
def isBlankName (name : String) : Bool := (Text.trim name.toList).isEmpty

/-- What keeps a type from being implemented. -/
def targetDefect? (d : Descriptor) : Option TargetDefect :=
  if isBlankName d.name then some .nameless
  else match d.kind with
    | .primitiveType => some .primitive
    | .arrayType => some .array
    | .classType => if d.isFinal then some .finalClass else none
    | .interfaceType => none

/-- Checks that a type can be implemented. -/
def checkTarget (d : Descriptor) : Except StubError Unit :=
  match targetDefect? d with
  | some defect => .error (.invalidTarget d.name defect.message)
  | none => .ok ()

/-- The type a target name stands for. A blank name is no target. -/
def resolveTarget (L : Library) (name : String) : Except StubError Descriptor :=
  if isBlankName name then .error (.invalidTarget name TargetDefect.nameless.message)
  else (L.resolve name).mapError .library

end Stubwright.Stub

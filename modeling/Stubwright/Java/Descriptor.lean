import Stubwright.Java.Member
import Stubwright.Text.Cut

/-!
# Type descriptors

A descriptor says what is known of one type. Its package and simple name are read off its binary
name: the package ends at the last dot, the simple name starts after the last dot or dollar sign. An
array belongs to no package.
-/

namespace Stubwright.Java

/-- What kind of type a descriptor describes. -/
inductive TypeKind where
  | interfaceType
  | classType
  | primitiveType
  | arrayType
  deriving DecidableEq, Repr, Inhabited

/-- The kind a library document names, in any case. -/
def TypeKind.ofAttribute? (s : String) : Option TypeKind :=
  let word := s.map Char.toLower
  if word == "interface" then some .interfaceType
  else if word == "class" || word == "abstract-class" then some .classType
  else none

/-- What is known of one type.

Meant are the types that documents declare and that names resolve to: interfaces and classes of any
name, primitives named by their keyword (`ofPrimitive`), arrays named by their element type and brackets
(`ofArray`). Their package and simple name follow from name and kind, and so are no fields. A
descriptor whose package or simple name was set to something else is none of these, nor is one made an
array by its kind alone, which would keep the package its name has. -/
structure Descriptor where
  /-- The binary name, package included. -/
  name : String
  kind : TypeKind := .interfaceType
  isFinal : Bool := false
  /-- The direct supertypes by name, in declaration order. -/
  supertypes : List String := []
  /-- The declared members, in declaration order. -/
  members : List Member := []
  deriving DecidableEq, Repr, Inhabited

namespace Descriptor

/-- The descriptor of a primitive type. -/
def ofPrimitive (p : Primitive) : Descriptor := { name := p.keyword, kind := .primitiveType }

/-- The descriptor of the arrays with the given element type. -/
def ofArray (element : JavaType) : Descriptor :=
  { name := element.binaryName ++ "[]", kind := .arrayType }

/-- The package; empty for the default package and for arrays. -/
def package (d : Descriptor) : String :=
  match d.kind, Text.cutLast? (· == '.') d.name.toList with
  | .arrayType, _ => ""
  | _, some (before, _) => String.ofList before
  | _, none => ""

/-- The name within the package and the enclosing types. -/
def simpleName (d : Descriptor) : String := Text.afterLast (fun c => c == '.' || c == '$') d.name

/-- The name in source text, enclosing types joined by dots. -/
def canonicalName (d : Descriptor) : String := JavaType.dotted d.name

/-- The segments of the package; none for the default package. -/
def packageSegments (d : Descriptor) : List String :=
  if d.package.isEmpty then [] else Text.pieces (· == '.') d.package

/-- Whether the type is an interface. -/
def isInterface (d : Descriptor) : Bool := d.kind == .interfaceType

/-- Whether the type is a primitive. -/
def isPrimitive (d : Descriptor) : Bool := d.kind == .primitiveType

/-- Whether the type is an array. -/
def isArray (d : Descriptor) : Bool := d.kind == .arrayType

/-- Whether the type is declared inside another one. -/
def isNested (d : Descriptor) : Bool := d.name.toList.contains '$'

end Descriptor
end Stubwright.Java

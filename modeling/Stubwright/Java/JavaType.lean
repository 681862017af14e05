import Stubwright.Java.Primitive
import Stubwright.Text.Blank

/-!
# Types in signatures

    written name ──ofName?──▶ JavaType ──binaryName──▶ library name
                                  └────canonicalName──▶ source name

A type is a primitive, a class or interface by its binary name, or an array. Reading trims at every
level, takes the `[]` suffixes off one by one, and gives keywords priority over class names. In
source text the `$` between a class and its nested class becomes a dot.
-/

namespace Stubwright.Java

/-- A type as it appears in a signature. -/
inductive JavaType where
  | primitive (p : Primitive)
  /-- A class or interface, by binary name. -/
  | reference (name : String)
  | array (element : JavaType)
  deriving DecidableEq, Repr, Inhabited

/-- The element name in front of a final `[]`. -/
def stripBrackets? (cs : List Char) : Option (List Char) :=
  match cs.reverse with
  | ']' :: '[' :: rest => some rest.reverse
  | _ => none

theorem stripBrackets?_eq_some {cs element : List Char} (h : stripBrackets? cs = some element) :
    cs = element ++ ['[', ']'] := by
  unfold stripBrackets? at h
  split at h
  · next rest hr =>
    cases h
    have := congrArg List.reverse hr
    simpa using this
  · cases h

namespace JavaType

/-- Reads a type name given as characters. -/
def ofChars? (cs : List Char) : Option JavaType :=
  let name := Text.trim cs
  match _h : stripBrackets? name with
  | some element => (ofChars? element).map .array
  | none =>
    if name.isEmpty then none
    else match Primitive.ofKeyword? (String.ofList name) with
      | some p => some (.primitive p)
      | none => some (.reference (String.ofList name))
termination_by cs.length
decreasing_by
  have h1 := Text.length_trim_le cs
  have h2 := congrArg List.length (stripBrackets?_eq_some _h)
  simp only [List.length_append, List.length_cons, List.length_nil] at h2
  simp only [name] at h2
  omega

/-- Reads a type name: a keyword or a class name, each followed by any number of `[]`. An empty name
names no type. -/
def ofName? (name : String) : Option JavaType := ofChars? name.toList

/-- A binary name in source form: nested classes are joined by dots. -/
def dotted (binaryName : String) : String := binaryName.map fun c => if c == '$' then '.' else c

/-- The name used in source text. -/
def canonicalName : JavaType → String
  | primitive p => p.keyword
  | reference name => dotted name
  | array element => element.canonicalName ++ "[]"

/-- The name used in a type library. -/
def binaryName : JavaType → String
  | primitive p => p.keyword
  | reference name => name
  | array element => element.binaryName ++ "[]"

/-- Whether the type is `void` itself. -/
def isVoid : JavaType → Bool
  | primitive .void => true
  | _ => false

/-- Whether the type is an array. -/
def isArray : JavaType → Bool
  | array _ => true
  | _ => false

/-- Whether the type is a primitive. -/
def isPrimitive : JavaType → Bool
  | primitive _ => true
  | _ => false

/-- The type under all array dimensions. -/
def innermost : JavaType → JavaType
  | array element => element.innermost
  | t => t

end JavaType
end Stubwright.Java

/-!
# Primitive types

The keywords that name a type by themselves, `void` among them. Reading a keyword and writing it
are inverse (`ofKeyword?_keyword`, `keyword_of_ofKeyword?`).
-/

namespace Stubwright.Java

/-- A primitive type; `void` is the absence of a value and only a return type. -/
inductive Primitive where
  | boolean | byte | short | char | int | long | float | double | void
  deriving DecidableEq, Repr, Inhabited

namespace Primitive

/-- Every primitive type. -/
def all : List Primitive := [boolean, byte, short, char, int, long, float, double, void]

/-- The keyword that names the type. -/
def keyword : Primitive → String
  | boolean => "boolean"
  | byte => "byte"
  | short => "short"
  | char => "char"
  | int => "int"
  | long => "long"
  | float => "float"
  | double => "double"
  | void => "void"

/-- The type a keyword names. -/
def ofKeyword? (s : String) : Option Primitive := all.find? (·.keyword == s)

/-- Numbers, characters among them: everything but `boolean` and `void`. -/
def isNumeric (p : Primitive) : Bool := p != boolean && p != void

theorem ofKeyword?_keyword (p : Primitive) : ofKeyword? p.keyword = some p := by
  cases p <;> decide

theorem keyword_of_ofKeyword? {s : String} {p : Primitive} (h : ofKeyword? s = some p) :
    p.keyword = s := by
  simpa using List.find?_some h

end Primitive
end Stubwright.Java

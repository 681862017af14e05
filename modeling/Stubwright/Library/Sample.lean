import Stubwright.Library.Basic

/-!
# Sample libraries

Libraries of any size for measurements: one interface with many members, a chain of interfaces, and
a library document of many types. Return types alternate between four kinds.
-/

namespace Stubwright.Library.Sample

open Java

/-- The type names that return types go through, in turn. -/
def returnTypeName (i : Nat) : String :=
  match i % 4 with
  | 0 => "int"
  | 1 => "boolean"
  | 2 => "java.lang.String"
  | _ => "void"

/-- The return type of the member with the given number. -/
def returnType (i : Nat) : JavaType :=
  match i % 4 with
  | 0 => .primitive .int
  | 1 => .primitive .boolean
  | 2 => .reference "java.lang.String"
  | _ => .primitive .void

/-- An interface with `n` members, each with one parameter and one exception. -/
def wideInterface (n : Nat) : Descriptor where
  name := "bench.Wide"
  members := (List.range n).map fun i => {
    name := "method" ++ toString i
    returns := returnType i
    parameters := [⟨"value", .primitive .long⟩]
    exceptions := [.reference "java.io.IOException"] }

/-- The library of one wide interface. -/
def wide (n : Nat) : Library := (Library.empty.addAll [wideInterface n]).1

/-- The interface at a level of a chain of `depth` levels; each extends the next. -/
def levelInterface (depth perLevel level : Nat) : Descriptor where
  name := "bench.Level" ++ toString level
  supertypes := if level + 1 < depth then ["bench.Level" ++ toString (level + 1)] else []
  members := (List.range perLevel).map fun i => {
    name := "level" ++ toString level ++ "Method" ++ toString i
    returns := returnType i }

/-- A chain of interfaces with `perLevel` members each. -/
def deep (depth perLevel : Nat) : Library :=
  (Library.empty.addAll ((List.range depth).map (levelInterface depth perLevel))).1

/-! ### A document of any size -/

/-- The line of a `method` element. -/
def methodLine (i : Nat) : String :=
  "        <method name=\"m" ++ toString i ++ "\" returns=\"" ++ returnTypeName i ++
    "\"><param name=\"x\" type=\"int\"/></method>\n"

/-- The lines of a `type` element; every type but the first extends the one before. -/
def typeLines (methods t : Nat) : String :=
  "    <type name=\"bench.Type" ++ toString t ++ "\">\n" ++
    (if t = 0 then "" else "        <extends type=\"bench.Type" ++ toString (t - 1) ++ "\"/>\n") ++
    String.join ((List.range methods).map methodLine) ++ "    </type>\n"

/-- A library document of `types` interfaces with `methods` members each. -/
def document (types methods : Nat) : String :=
  "<typeLibrary>\n" ++ String.join ((List.range types).map (typeLines methods)) ++
    "</typeLibrary>\n"

end Stubwright.Library.Sample

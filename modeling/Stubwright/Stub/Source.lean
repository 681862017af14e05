import Stubwright.Java.Descriptor
import Stubwright.Stub.Body
import Stubwright.Stub.Inheritance
import Stubwright.Stub.Signature

/-!
# Stub sources

    target, members ──source──▶ Source (package, class name, text)

The source of a stub is one class: the package line, the class line, each member after an empty line,
and the closing brace. A nested target is named in full, since it cannot be seen by its simple name
from outside.
-/

namespace Stubwright.Stub

open Java

/-- The source of one stub class. -/
structure Source where
  /-- Empty for the default package. -/
  package : String
  className : String
  text : String
  deriving DecidableEq, Repr, Inhabited

/-- The class name with its package. -/
def Source.qualifiedName (s : Source) : String :=
  if s.package.isEmpty then s.className else s.package ++ "." ++ s.className

/-- The number of spaces of one indentation step, unless told otherwise. -/
def defaultIndent : Nat := 4

/-- What a stub class is called more than its target. -/
def classSuffix : String := "Impl"

/-- The name of the stub class. -/
def className (target : Descriptor) : String := target.simpleName ++ classSuffix

/-- One step of indentation. -/
def margin (indent : Nat) : String := String.ofList (List.replicate indent ' ')

/-- The package line and the empty line after it; nothing for the default package. -/
def packageLine (target : Descriptor) : String :=
  if target.package.isEmpty then "" else "package " ++ target.package ++ ";\n\n"

/-- The word between the stub class and its target. -/
def relation (target : Descriptor) : String :=
  if target.isInterface then "implements" else "extends"

/-- The target as the class line names it. -/
def targetName (target : Descriptor) : String :=
  if target.isNested then target.canonicalName else target.simpleName

/-- The class line. -/
def classLine (target : Descriptor) : String :=
  "public class " ++ className target ++ " " ++ relation target ++ " " ++ targetName target ++
    " \x7b\n"

/-- A member: its annotations, its head and its body. -/
def memberText (indent : Nat) (m : Member) : String :=
  let margin := margin indent
  String.join (m.annotations.map fun a => margin ++ a ++ "\n") ++
    margin ++ signature m ++ " \x7b\n" ++
    (match (ReturnCategory.ofType m.returns).statement? with
      | some statement => margin ++ margin ++ statement ++ "\n"
      | none => "") ++
    margin ++ "\x7d\n"

/-- The source of a stub that provides the given members. -/
def source (indent : Nat) (target : Descriptor) (members : List Member) : Source where
  package := target.package
  className := className target
  text := packageLine target ++ classLine target ++
    String.join (members.map fun m => "\n" ++ memberText indent m) ++ "\x7d\n"

/-- The source of the stub of a target. -/
def render (L : Library) (indent : Nat) (target : Descriptor) : Except StubError Source := do
  return source indent target (← members L target)

end Stubwright.Stub

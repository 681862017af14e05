import Stubwright.Build.Error

/-!
# What goes wrong with an invocation

An invocation fails with the error of what it was doing. The exit code tells kinds of failures apart,
and each exit code has a label. A report is the label with the wording of the error; a cause is added
only if the wording does not tell it already.
-/

namespace Stubwright.CommandLine

open Build

/-- Why an invocation failed. -/
inductive RunError where
  | library (path : Path) (error : DocumentError)
  | invalidLibrary (error : LibraryError)
  | invalidPath (path : Path) (reason : String)
  | stub (error : StubError)
  | build (error : BuildError)
  deriving DecidableEq, Repr, Inhabited

/-- The kinds of failures that exit codes tell apart. -/
inductive Failure where
  | unresolvedType
  | invalidTarget
  | generation
  | path
  | compile
  | archive
  | library
  deriving DecidableEq, Repr, Inhabited

namespace Failure

/-- The exit code of a kind of failure. -/
def exitCode : Failure → Nat
  | unresolvedType => 3
  | invalidTarget => 4
  | generation => 5
  | path => 6
  | compile => 7
  | archive => 8
  | library => 9

/-- The label of a kind of failure. -/
def label : Failure → String
  | unresolvedType => "type resolution error"
  | invalidTarget => "invalid target"
  | generation => "generation error"
  | path => "path error"
  | compile => "compile error"
  | archive => "archive error"
  | library => "type library error"

/-- The kind of failure a stub error is. -/
def ofStub : StubError → Failure
  | .library (.typeNotFound _) => unresolvedType
  | .library _ => library
  | .document _ => library
  | .invalidTarget _ _ => invalidTarget
  | .write _ _ => generation
  | .directory _ _ => path

end Failure

namespace RunError

/-- The kind of failure. -/
def failure : RunError → Failure
  | library _ _ => .library
  | invalidLibrary _ => .library
  | invalidPath _ _ => .path
  | stub error => Failure.ofStub error
  | build (.generate error) => Failure.ofStub error
  | build (.scratch _ _) => .path
  | build (.cleanup _ _) => .path
  | build (.compile _) => .compile
  | build (.archive _) => .archive

/-- The exit code of the invocation. -/
def exitCode (e : RunError) : Nat := e.failure.exitCode

/-- The label of the failure. -/
def category (e : RunError) : String := e.failure.label

/-- The wording of the error. -/
def message : RunError → String
  | library path error => "cannot load type library '" ++ path.text ++ "': " ++ error.message
  | invalidLibrary error => "invalid type library: " ++ error.message
  | invalidPath path reason => "invalid path '" ++ path.text ++ "': " ++ reason
  | stub error => error.message
  | build error => error.message

/-- The wordings of the causes behind the error, the nearest first. -/
def causes (behind : String → List String) : RunError → List String
  | library _ error => error.message :: error.causes behind
  | invalidLibrary error => error.message :: error.causes behind
  | invalidPath _ _ => []
  | stub error => error.causes behind
  | build error => error.causes behind

/-- Adds a cause to a report that does not tell it. -/
def addCause (report cause : String) : String :=
  if Text.occursIn cause.toList report.toList then report else report ++ ": " ++ cause

/-- The error with all causes that its wording does not tell. -/
def reportWith (behind : String → List String) (e : RunError) : String :=
  (e.causes behind).foldl addCause (e.category ++ ": " ++ e.message)

/-- The error as shown to the user. An error from elsewhere tells all that is behind it. -/
def report (e : RunError) : String := e.reportWith fun _ => []

end RunError
end Stubwright.CommandLine

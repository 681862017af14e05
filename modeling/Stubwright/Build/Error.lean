import Stubwright.Archive.Writer
import Stubwright.Build.Compiler
import Stubwright.Build.Stage
import Stubwright.Stub.Error

/-!
# What goes wrong with builds

A build error is the error of the stage that failed, or of the scratch directory.
-/

namespace Stubwright.Build

open Host

/-- Why a build did not end well. -/
inductive BuildError where
  | generate (error : StubError)
  | scratch (parent : Path) (error : IoError)
  | compile (error : CompileError)
  | archive (error : ArchiveError)
  | cleanup (path : Path) (error : IoError)
  deriving DecidableEq, Repr, Inhabited

namespace BuildError

/-- The stage that failed. Making the scratch directory belongs to the first. -/
def stage : BuildError → Stage
  | generate _ => .generate
  | scratch _ _ => .generate
  | compile _ => .compile
  | archive _ => .archive
  | cleanup _ _ => .cleanup

/-- The wording of the error. -/
def message : BuildError → String
  | generate error => "generate stage failed: " ++ error.message
  | scratch parent error =>
    "failed to create scratch directory under '" ++ parent.text ++ "': " ++ error.message
  | compile error => "compile stage failed: " ++ error.message
  | archive error => "archive stage failed: " ++ error.message
  | cleanup path error =>
    "failed to remove scratch directory '" ++ path.text ++ "': " ++ error.message

/-- The wordings of the causes behind the error, the nearest first. -/
def causes (behind : String → List String) : BuildError → List String
  | generate error => error.message :: error.causes behind
  | scratch _ error => error.message :: behind error.message
  | compile error => error.message :: error.causes behind
  | archive error => error.message :: error.causes behind
  | cleanup _ error => error.message :: behind error.message

end BuildError
end Stubwright.Build

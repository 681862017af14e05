import Stubwright.Host.Path
import Stubwright.Library.Error

/-!
# What goes wrong with stubs

The causes for which no stub is made or written, and the one wording of each.
-/

namespace Stubwright

/-- Why no stub was made. -/
inductive StubError where
  | document (error : DocumentError)
  | library (error : LibraryError)
  /-- The type cannot be implemented. -/
  | invalidTarget (name reason : String)
  | write (path : Path) (error : Host.IoError)
  | directory (path : Path) (error : Host.IoError)
  deriving DecidableEq, Repr, Inhabited

namespace StubError

/-- The wording of the error. -/
def message : StubError → String
  | document error => "type library parse error: " ++ error.message
  | library error => "type library error: " ++ error.message
  | invalidTarget name reason => "invalid target '" ++ name ++ "': " ++ reason
  | write path error => "failed to write '" ++ path.text ++ "': " ++ error.message
  | directory path error =>
    "failed to create directory '" ++ path.text ++ "': " ++ error.message

/-- The wordings of the causes behind the error, the nearest first. -/
def causes (behind : String → List String) : StubError → List String
  | document error => error.message :: error.causes behind
  | library error => error.message :: error.causes behind
  | invalidTarget _ _ => []
  | write _ error => error.message :: behind error.message
  | directory _ error => error.message :: behind error.message

end StubError
end Stubwright

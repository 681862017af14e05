import Stubwright.Host.IoError
import Stubwright.Markup.Fault

/-!
# What goes wrong with type libraries

`DocumentError` is what reading a library document or adding to a library can end in, `LibraryError`
what looking up and checking can. Each cause has one wording.

An error has its causes behind it. The last of them may be an error of the machine, of the reader of
markup or of the writer of containers; what is behind such an error is theirs to tell. So all lists of
causes take it as a parameter: `behind` gives the wordings of the errors behind an error with a certain
wording, the nearest first.
-/

namespace Stubwright

/-- Why no library could be read. -/
inductive DocumentError where
  | markup (fault : Markup.Fault)
  | escape (fault : Markup.EscapeFault)
  | missingAttribute (element key : String)
  | invalidAttribute (element key value : String)
  | duplicate (what name : String)
  | invalidStructure (reason : String)
  | io (error : Host.IoError)
  deriving DecidableEq, Repr, Inhabited

namespace DocumentError

/-- The wording of the error. -/
def message : DocumentError → String
  | markup fault => fault.label ++ fault.message
  | escape fault => "XML escape error: " ++ fault.message
  | missingAttribute element key =>
    "missing required attribute '" ++ key ++ "' on element '" ++ element ++ "'"
  | invalidAttribute element key value =>
    "invalid value '" ++ value ++ "' for attribute '" ++ key ++ "' on element '" ++ element ++
      "'"
  | duplicate what name => "duplicate " ++ what ++ " definition: '" ++ name ++ "'"
  | invalidStructure reason => "invalid type library structure: " ++ reason
  | io error => "IO error: " ++ error.message

/-- The wordings of the causes behind the error, the nearest first. -/
def causes (behind : String → List String) : DocumentError → List String
  | markup fault => fault.message :: behind fault.message
  | escape fault => fault.message :: behind fault.message
  | io error => error.message :: behind error.message
  | _ => []

end DocumentError

/-- Why a library is not usable, or a name not found in it. -/
inductive LibraryError where
  | document (error : DocumentError)
  | typeNotFound (name : String)
  | circularReference (path : String)
  | invalid (reason : String)
  deriving DecidableEq, Repr, Inhabited

namespace LibraryError

/-- The wording of the error. -/
def message : LibraryError → String
  | document error => "parse error: " ++ error.message
  | typeNotFound name => "type '" ++ name ++ "' not found"
  | circularReference path => "circular supertype reference detected: " ++ path
  | invalid reason => "validation error: " ++ reason

/-- The wordings of the causes behind the error, the nearest first. -/
def causes (behind : String → List String) : LibraryError → List String
  | document error => error.message :: error.causes behind
  | _ => []

end LibraryError
end Stubwright

import Stubwright.Host.Copy
import Stubwright.Library.Document

/-!
# Library files

A library document read from a file of the machine. A file that cannot be read, or is not UTF-8, is
an error of reading; all else is decided by its text.
-/

namespace Stubwright.Library

/-- Reads a library from a file. -/
def ofFile {m : Type → Type} [Monad m] (host : Host m) (path : Path) :
    m (Except DocumentError Library) := do
  match ← host.readText path with
  | .error e => return .error (.io e)
  | .ok text => return ofDocument text

end Stubwright.Library

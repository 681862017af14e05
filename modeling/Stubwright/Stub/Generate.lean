import Stubwright.Library.File
import Stubwright.Library.Validation
import Stubwright.Stub.Source

/-!
# From a document to a stub

    document ──read──▶ library ──validate──▶ valid library ──render──▶ source text

The whole way in one step, for one named type of one document.
-/

namespace Stubwright.Stub

/-- The source text of the stub of a type that a library declares. -/
def ofLibrary (L : Library) (name : String) : Except StubError String := do
  L.validate.mapError .library
  let target ← resolveTarget L name
  return (← render L defaultIndent target).text

/-- The source text of the stub of a type that a document declares. -/
def ofDocument (text name : String) : Except StubError String := do
  let L ← (Library.ofDocument text).mapError .document
  ofLibrary L name

/-- The source text of the stub of a type that the document in a file declares. -/
def ofFile {m : Type → Type} [Monad m] (host : Host m) (path : Path) (name : String) :
    m (Except StubError String) := do
  match ← Library.ofFile host path with
  | .error e => return .error (.document e)
  | .ok L => return ofLibrary L name

end Stubwright.Stub

import Stubwright.Host.Directories
import Stubwright.Stub.Location
import Stubwright.Text.Utf8

/-!
# Writing stubs

The source of a stub is written beside its place and put there in one step, so that no one ever finds
half of it. Nothing is created before the target is known to be one.
-/

namespace Stubwright.Stub

open Java Host

variable {m : Type → Type} [Monad m]

/-- The path of the source file, after all directories above it were made. -/
def preparePath (host : Host m) (root : Path) (target : Descriptor) :
    m (Except StubError Path) := do
  let directory := packageDirectory root target
  match ← host.makeDirectories directory with
  | .error e => return .error (.directory directory e)
  | .ok () => return .ok (sourcePath root target)

/-- Writes a file in one step: it is there with all its content or not at all. -/
def writeAtOnce (host : Host m) (path : Path) (content : Bytes) : m (Except StubError Unit) := do
  match ← host.stage (path.parent?.getD Path.here) with
  | .error e => return .error (.write path e)
  | .ok staged =>
    match ← host.append staged content with
    | .error e =>
      host.discard staged
      return .error (.write path e)
    | .ok () =>
      match ← host.rename staged path with
      | .error e =>
        host.discard staged
        return .error (.write path e)
      | .ok () => return .ok ()

/-- Writes a source for its target under a root and gives the path of the file. -/
def writeSource (host : Host m) (root : Path) (target : Descriptor) (source : Source) :
    m (Except StubError Path) := do
  match ← preparePath host root target with
  | .error e => return .error e
  | .ok path =>
    match ← writeAtOnce host path (Text.utf8 source.text) with
    | .error e => return .error e
    | .ok () => return .ok path

/-- Makes the stub of a target under a root. -/
def implement (host : Host m) (L : Library) (indent : Nat) (root : Path) (target : Descriptor) :
    m (Except StubError Path) := do
  match render L indent target with
  | .error e => return .error e
  | .ok source => writeSource host root target source

/-- Makes the stub of a named type under a root. -/
def implementNamed (host : Host m) (L : Library) (indent : Nat) (root : Path) (name : String) :
    m (Except StubError Path) := do
  match resolveTarget L name with
  | .error e => return .error e
  | .ok target => implement host L indent root target

end Stubwright.Stub

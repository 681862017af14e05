import Stubwright.Archive.Container
import Stubwright.Archive.Manifest
import Stubwright.Host.Copy
import Stubwright.Host.Directories

/-!
# Writing archives

An archive holds a manifest and one class file. It is filled beside its destination and put into
place in one step, so that the destination is never seen half written; a file that is not put into
place is removed again.
-/

namespace Stubwright

open Host Archive

/-- Why the members do not make a container. -/
inductive ContainerFault where
  | duplicateName (name : String)
  | nameTooLong
  /-- The container could not be ended. -/
  | unfinished (error : IoError)
  /-- Anything else, in the words of who writes containers. -/
  | other (text : String)
  deriving DecidableEq, Repr, Inhabited

/-- The wording of a fault. -/
def ContainerFault.message : ContainerFault → String
  | duplicateName name => "invalid Zip archive: Duplicate filename: " ++ name
  | nameTooLong => "invalid Zip archive: File name too long"
  | unfinished error => "i/o error: " ++ error.message
  | other text => text

/-- Why no archive was written. -/
inductive ArchiveError where
  | io (path : Path) (error : IoError)
  | container (fault : ContainerFault)
  | missingArtifact (path : Path)
  deriving DecidableEq, Repr, Inhabited

namespace ArchiveError

/-- The wording of the error. -/
def message : ArchiveError → String
  | io path error => "IO error on '" ++ path.text ++ "': " ++ error.message
  | container fault => "zip error: " ++ fault.message
  | missingArtifact path => "artifact '" ++ path.text ++ "' does not exist"

/-- The wordings of the causes behind the error, the nearest first. -/
def causes (behind : String → List String) : ArchiveError → List String
  | io _ error => error.message :: behind error.message
  | container fault => fault.message :: behind fault.message
  | missingArtifact _ => []

end ArchiveError

namespace Archive

/-- A file to put into an archive: its name there, and where its bytes are. -/
structure Entry where
  name : String
  source : Path
  deriving DecidableEq, Repr, Inhabited

/-- Writes an archive at a destination. -/
abbrev Writer (m : Type → Type) :=
  Path → Manifest → Entry → m (Except ArchiveError Unit)

/-- Sizes are written in four bytes. -/
def sizeLimit : Nat := 0x100000000

/-- Lengths of names are written in two bytes. -/
def nameLimit : Nat := 0x10000

variable {m : Type → Type} [Monad m]

/-- The manifest as a member. -/
def manifestMember (compression : Compression) (manifest : Manifest) : Member :=
  ⟨Manifest.entryName, compression, Text.utf8 manifest.render⟩

/-- Fills an empty file with the container. -/
def fill (host : Host m) (compression : Compression) (target : Path) (manifest : Manifest)
    (entry : Entry) : m (Except ArchiveError Unit) := do
  let first := manifestMember compression manifest
  match ← host.append target (Container.localRecord first) with
  | .error e => return .error (.io ⟨Manifest.entryName⟩ e)
  | .ok () =>
    if entry.name == Manifest.entryName then
      return .error (.container (.duplicateName entry.name))
    else if nameLimit ≤ entry.name.utf8ByteSize then
      return .error (.container .nameTooLong)
    else
      match ← host.readAll entry.source with
      | .error e => return .error (.io entry.source e)
      | .ok content =>
        let second : Member := ⟨entry.name, compression, content⟩
        if sizeLimit ≤ (Container.encode [first, second]).length then
          return .error (.io entry.source (.described "Large file option has not been set"))
        else
          match ← host.append target (Container.localRecord second) with
          | .error e => return .error (.io entry.source e)
          | .ok () =>
            match ← host.append target (Container.trailer [first, second]) with
            | .error e => return .error (.container (.unfinished e))
            | .ok () => return .ok ()

/-- The directory a destination is in. -/
def directoryOf (destination : Path) : Path :=
  match destination.parent? with
  | some parent => if parent.isEmpty then Path.here else parent
  | none => Path.here

/-- Writes an archive. The class file has to be there before anything is created. -/
def write (host : Host m) (compression : Compression) : Writer m :=
  fun destination manifest entry => do
    if !(← host.isFile entry.source) then return .error (.missingArtifact entry.source)
    let directory := directoryOf destination
    match ← host.makeDirectories directory with
    | .error e => return .error (.io directory e)
    | .ok () =>
      match ← host.stage directory with
      | .error e => return .error (.io directory e)
      | .ok staged =>
        match ← fill host compression staged manifest entry with
        | .error e =>
          host.discard staged
          return .error e
        | .ok () =>
          match ← host.rename staged destination with
          | .error e =>
            host.discard staged
            return .error (.io destination e)
          | .ok () => return .ok ()

end Archive
end Stubwright

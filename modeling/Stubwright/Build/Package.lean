import Stubwright.Build.Artifact
import Stubwright.Build.Error
import Stubwright.Stub.Write

/-!
# Packaging a stub

    target ──generate──▶ source file ──compile──▶ class file ──archive──▶ archive ──▶ cleanup

A build makes a scratch directory, writes the source into it, has it compiled there, and puts the
class into the archive. The first stage that fails ends the build. The scratch directory is removed
in any case, and a target that cannot be implemented is refused before it is made.
-/

namespace Stubwright.Build

open Java Host Stub

/-- What a build needs besides its target. -/
structure Settings (m : Type → Type) where
  compiler : Compiler m
  writer : Archive.Writer m
  /-- Where scratch directories are made. -/
  scratchParent : Path := Path.here
  /-- The class path of the environment, if it is to be searched. -/
  inherited? : Option String := none
  classPath : ClassPath := []
  indent : Nat := defaultIndent

/-- What a build made. -/
structure Report where
  archive : Path
  classEntry : String
  mainClass : String
  state : ArtifactState
  deriving DecidableEq, Repr, Inhabited

variable {m : Type → Type} [Monad m]

/-- Has a source file compiled: the class file, which has to be there afterwards. -/
def compile (host : Host m) (settings : Settings m) (scratch source : Path) :
    m (Except CompileError Path) := do
  let classPath := ClassPath.search scratch settings.inherited? settings.classPath
  match ← settings.compiler source classPath with
  | .error e => return .error e
  | .ok status =>
    if !status.isSuccess then return .error (.failed status.code status.diagnostics)
    let expected := (classFile? source).getD (source.withExtension classExtension)
    if ← host.isFile expected then return .ok expected
    else return .error (.missingOutput expected)

/-- The stages that use the scratch directory: the artifact they leave, and the manifest. -/
def buildIn (host : Host m) (settings : Settings m) (target : Descriptor) (source : Source)
    (destination scratch : Path) : m (Except BuildError Artifact) := do
  match ← writeSource host scratch target source with
  | .error e => return .error (.generate e)
  | .ok sourceFile =>
    let artifact := Artifact.written sourceFile
    match ← compile host settings scratch sourceFile with
    | .error e => return .error (.compile e)
    | .ok classFile =>
      let artifact := (artifact.advance .compiled classFile).1
      let entry : Archive.Entry := ⟨classEntry target, classFile⟩
      match ← settings.writer destination ⟨source.qualifiedName⟩ entry with
      | .error e => return .error (.archive e)
      | .ok () => return .ok (artifact.advance .archived destination).1

/-- Packages the stub of a target into an archive. -/
def package (host : Host m) (settings : Settings m) (L : Library) (target : Descriptor)
    (destination : Path) : m (Except BuildError Report) := do
  match render L settings.indent target with
  | .error e => return .error (.generate e)
  | .ok source =>
    match ← host.makeScratch settings.scratchParent with
    | .error e => return .error (.scratch settings.scratchParent e)
    | .ok scratch =>
      match ← buildIn host settings target source destination scratch with
      | .error e =>
        let _ ← host.removeTree scratch
        return .error e
      | .ok artifact =>
        match ← host.removeTree scratch with
        | .error e => return .error (.cleanup scratch e)
        | .ok () =>
          let artifact := (artifact.advance .removed destination).1
          return .ok ⟨destination, classEntry target, source.qualifiedName, artifact.state⟩

/-- Packages the stub of a named type into an archive. -/
def packageNamed (host : Host m) (settings : Settings m) (L : Library) (name : String)
    (destination : Path) : m (Except BuildError Report) := do
  match resolveTarget L name with
  | .error e => return .error (.generate e)
  | .ok target => package host settings L target destination

end Stubwright.Build

import Stubwright.Build.Stage
import Stubwright.Host.Path

/-!
# Artifacts

An artifact is a path together with how far it has come. State and path change together, or not at
all.
-/

namespace Stubwright.Build

/-- A file that a build works on. -/
structure Artifact where
  path : Path
  state : ArtifactState
  deriving DecidableEq, Repr, Inhabited

namespace Artifact

/-- A file that was just written. -/
def written (path : Path) : Artifact := ⟨path, .written⟩

/-- Moves on to a state at a path: the artifact then, and whether it moved. -/
def advance (a : Artifact) (state : ArtifactState) (path : Path) : Artifact × Bool :=
  if a.state.rank < state.rank then (⟨path, state⟩, true) else (a, false)

end Artifact
end Stubwright.Build

/-!
# Stages and artifacts

A build goes through four stages in a fixed order. The file it works on, its artifact, goes through
four states and never back: a request for a state that is not ahead changes nothing.
-/

namespace Stubwright.Build

/-- A stage of a build, in order. -/
inductive Stage where
  | generate
  | compile
  | archive
  | cleanup
  deriving DecidableEq, Repr, Inhabited

namespace Stage

/-- All stages in order. -/
def all : List Stage := [generate, compile, archive, cleanup]

/-- The stage in capitals. -/
def label : Stage → String
  | generate => "GENERATE"
  | compile => "COMPILE"
  | archive => "ARCHIVE"
  | cleanup => "CLEANUP"

end Stage

/-- How far an artifact has come. -/
inductive ArtifactState where
  /-- The source file is written. -/
  | written
  /-- The class file is there. -/
  | compiled
  /-- The class file is in the archive. -/
  | archived
  /-- The scratch files are gone. -/
  | removed
  deriving DecidableEq, Repr, Inhabited

/-- The position of a state. -/
def ArtifactState.rank : ArtifactState → Nat
  | written => 0
  | compiled => 1
  | archived => 2
  | removed => 3

end Stubwright.Build

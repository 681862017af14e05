import Stubwright.Host.Path
import Stubwright.Stub.Source

/-!
# Where stubs are kept

The source of a stub is in the directory of its package, in a file named for its class. The compiler
puts the class file beside it; inside an archive the class has the same name below the package.
-/

namespace Stubwright.Stub

open Java

/-- The ending of source files and of class files. -/
def sourceExtension : String := "java"

def classExtension : String := "class"

/-- The source file below its root. -/
def relativePath (target : Descriptor) : Path :=
  ((Path.mk "").joinAll target.packageSegments).join
    ⟨className target ++ "." ++ sourceExtension⟩

/-- The directory of the target's package. -/
def packageDirectory (root : Path) (target : Descriptor) : Path :=
  root.joinAll target.packageSegments

/-- The source file under a root. -/
def sourcePath (root : Path) (target : Descriptor) : Path := root.join (relativePath target)

/-- The class file a compiler writes beside a source file; only source files have one. -/
def classFile? (source : Path) : Option Path :=
  if source.extension? == some sourceExtension then some (source.withExtension classExtension)
  else none

/-- The name of the class inside an archive. -/
def classEntry (target : Descriptor) : String :=
  "/".intercalate (target.packageSegments ++ [className target ++ "." ++ classExtension])

end Stubwright.Stub

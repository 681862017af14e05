import Stubwright.Build.Package
import Stubwright.CommandLine.Error
import Stubwright.CommandLine.Options
import Stubwright.Library.Catalog
import Stubwright.Library.File
import Stubwright.Library.Validation

/-!
# Running an invocation

    options ──loadFiles──▶ catalog ──▶ valid library ──▶ source file, or archive

An invocation reads the library files in order into one catalog, checks its library, and then either
writes the source of the stub or packages it.
-/

namespace Stubwright.CommandLine

open Build Host

variable {m : Type → Type} [Monad m]

/-- Adds the libraries in the given files, in order. -/
def loadFiles (host : Host m) (c : Catalog) : List Path → m (Except RunError Catalog)
  | [] => return .ok c
  | path :: rest => do
    match ← Library.ofFile host path with
    | .error e => return .error (.library path e)
    | .ok loaded =>
      match c.addAll loaded.types with
      | (_, some e) => return .error (.library path e)
      | (c, none) => loadFiles host c rest

/-- Reads, merges and checks the libraries in the given files. -/
def loadLibrary (host : Host m) (paths : List Path) : m (Except RunError Library) := do
  match ← loadFiles host Catalog.empty paths with
  | .error e => return .error e
  | .ok c =>
    let L := c.library
    match L.validate with
    | .error e => return .error (.invalidLibrary e)
    | .ok () => return .ok L

/-- What an invocation made. -/
inductive Outcome where
  | source (path : Path)
  | archive (report : Report)
  deriving DecidableEq, Repr, Inhabited

/-- The variables of the environment that compilers go by. -/
def classPathVariable : String := "CLASSPATH"

def javaHomeVariable : String := "JAVA_HOME"

/-- The build an invocation asks for. -/
def settingsOf (host : Host m) (environment : String → Option String) (options : Options) :
    Settings m where
  compiler :=
    javac host (options.javac?.getD (defaultProgram (environment javaHomeVariable))) []
  writer := Archive.write host .deflated
  scratchParent := options.scratchDir?.getD Path.here
  inherited? := environment classPathVariable
  classPath := options.classPath
  indent := options.indent

/-- Packages the stub. The destination is no directory. -/
def runArchive (host : Host m) (environment : String → Option String) (options : Options)
    (L : Library) : m (Except RunError Outcome) := do
  if ← host.isDirectory options.path then
    return .error (.invalidPath options.path "archive destination is a directory")
  let settings := settingsOf host environment options
  match ← packageNamed host settings L options.typeName options.path with
  | .error e => return .error (.build e)
  | .ok report => return .ok (.archive report)

/-- Writes the source of the stub. What stands at the root is a directory or nothing. -/
def runSource (host : Host m) (options : Options) (L : Library) :
    m (Except RunError Outcome) := do
  if (← host.kind? options.path) == some .file then
    return .error (.invalidPath options.path "source root is not a directory")
  match ← Stub.implementNamed host L options.indent options.path options.typeName with
  | .error e => return .error (.stub e)
  | .ok path => return .ok (.source path)

/-- Runs one invocation. -/
def run (host : Host m) (environment : String → Option String) (options : Options) :
    m (Except RunError Outcome) := do
  match ← loadLibrary host options.types with
  | .error e => return .error e
  | .ok L =>
    if options.jar then runArchive host environment options L else runSource host options L

/-- What an invocation shows: its exit code, and the text on each output. -/
structure Display where
  exitCode : Nat
  stdout : String := ""
  stderr : String := ""
  deriving DecidableEq, Repr

/-- The line an outcome makes. -/
def Outcome.line : Outcome → String
  | source path => path.text
  | archive report => report.archive.text ++ " (Main-Class: " ++ report.mainClass ++ ")"

/-- What an invocation shows when it ends. -/
def display : Except RunError Outcome → Display
  | .ok outcome => { exitCode := 0, stdout := outcome.line ++ "\n" }
  | .error e => { exitCode := e.exitCode, stderr := "ironimpl: " ++ e.report ++ "\n" }

end Stubwright.CommandLine

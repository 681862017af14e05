import Stubwright.Build.ClassPath
import Stubwright.Host.Basic
import Stubwright.Text.Utf8

/-!
# Compilers

A compiler turns a source file into a class file beside it. `javac` is the one that runs as a program
of the machine; builds take any compiler. A compiler that runs and fails says so in its status; one
that cannot be run is an error.
-/

namespace Stubwright.Build

open Host

/-- How a compiler ended. -/
structure CompileStatus where
  /-- The exit code; none if a signal ended the compiler. -/
  code : Option Int
  diagnostics : String
  deriving DecidableEq, Repr, Inhabited

namespace CompileStatus

/-- A compiler that had nothing to say. -/
def success : CompileStatus := ⟨some 0, ""⟩

/-- Whether the compiler ended well. -/
def isSuccess (s : CompileStatus) : Bool := s.code == some 0

end CompileStatus

/-- Why there is no class file. -/
inductive CompileError where
  | unavailable (program : Path) (error : IoError)
  | failed (code : Option Int) (diagnostics : String)
  | missingOutput (path : Path)
  | classPath (reason : String)
  | io (error : IoError)
  deriving DecidableEq, Repr, Inhabited

namespace CompileError

/-- How an exit code is shown. -/
def exitText : Option Int → String
  | some code => "exit code " ++ toString code
  | none => "terminated by signal"

/-- The wording of the error. -/
def message : CompileError → String
  | unavailable program error =>
    "compiler '" ++ program.text ++ "' is not available: " ++ error.message
  | failed code diagnostics => "compilation failed (" ++ exitText code ++ "): " ++ diagnostics
  | missingOutput path => "compiler produced no class file at '" ++ path.text ++ "'"
  | classPath reason => "invalid search path: " ++ reason
  | io error => "IO error: " ++ error.message

/-- The wordings of the causes behind the error, the nearest first. -/
def causes (behind : String → List String) : CompileError → List String
  | unavailable _ error => error.message :: behind error.message
  | io error => error.message :: behind error.message
  | _ => []

end CompileError

/-- Compiles a source file with a class path. -/
abbrev Compiler (m : Type → Type) :=
  Path → ClassPath → m (Except CompileError CompileStatus)

/-- The compiler of the installation that `JAVA_HOME` names, or the one the system finds. -/
def defaultProgram (home? : Option String) : Path :=
  match home? with
  | some home => if home.isEmpty then ⟨"javac"⟩ else ((Path.mk home).join ⟨"bin"⟩).join ⟨"javac"⟩
  | none => ⟨"javac"⟩

/-- The arguments of a compiler run. -/
def compilerArguments (classPath : String) (extra : List String) (source : Path) : List String :=
  ["-encoding", "UTF-8", "-cp", classPath] ++ extra ++ [source.text]

/-- Why a class path cannot be written as one text. -/
def separatorInEntry : String :=
  "path segment contains separator `" ++ ClassPath.separator.toString ++ "`"

/-- The compiler that runs a program of the machine. What it writes to its error output comes first
in the diagnostics. -/
def javac {m : Type → Type} [Monad m] (host : Host m) (program : Path) (extra : List String) :
    Compiler m := fun source classPath => do
  match classPath.join? with
  | none => return .error (.classPath separatorInEntry)
  | some joined =>
    match ← host.run program (compilerArguments joined extra source) with
    | .error e => return .error (if e.isNotFound then .unavailable program e else .io e)
    | .ok result =>
      return .ok ⟨result.code, Text.ofUtf8Lossy result.stderr ++ Text.ofUtf8Lossy result.stdout⟩

end Stubwright.Build

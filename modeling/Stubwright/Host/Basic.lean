import Stubwright.Host.IoError
import Stubwright.Host.Path

/-!
# The machine a build runs on

Everything the program asks of its surroundings is an operation of a `Host`, over any monad: a disk,
a file tree in memory, a machine on which chosen operations fail. Operations that can fail give an
`IoError`; no other state is shared between them and the program.
-/

namespace Stubwright

/-- The content of a file. -/
abbrev Bytes := List UInt8

namespace Host

/-- The first part of the names of files that wait to be renamed into place. -/
def stagingStem : String := ".ironimpl-"

/-- The first part of the names of scratch directories. -/
def scratchStem : String := "ironimpl-"

/-- What stands at a path. -/
inductive EntryKind where
  | file
  | directory
  deriving DecidableEq, Repr

/-- What one attempt to read from an open file gives; no bytes are the end of the file. -/
inductive ReadResult where
  | chunk (bytes : Bytes)
  /-- The attempt was interrupted and is to be repeated. -/
  | interrupted
  | failed (error : IoError)
  deriving DecidableEq, Repr

/-- How a program ended and what it wrote. A program ended by a signal has no exit code. -/
structure ProgramResult where
  code : Option Int
  stdout : Bytes := []
  stderr : Bytes := []
  deriving DecidableEq, Repr

end Host

open Host

/-- The operations of a machine. -/
structure Host (m : Type → Type) where
  /-- What stands at a path, if anything can be found there. -/
  kind? : Path → m (Option EntryKind)
  /-- Opens a file and reads it to its end in chunks of at most the given size. -/
  read : Path → Nat → m (Except IoError (List ReadResult))
  /-- Creates one directory. -/
  makeDirectory : Path → m (Except IoError Unit)
  /-- Creates an empty file of a fresh name in a directory and gives its path. -/
  stage : Path → m (Except IoError Path)
  /-- Writes at the end of a file. -/
  append : Path → Bytes → m (Except IoError Unit)
  /-- Puts a file into the place of another path in one step. -/
  rename : Path → Path → m (Except IoError Unit)
  /-- Removes a file; that it cannot be removed shows nowhere. -/
  discard : Path → m Unit
  /-- Creates a directory of a fresh name in a directory and gives its absolute path. -/
  makeScratch : Path → m (Except IoError Path)
  /-- Removes a directory with all it holds. -/
  removeTree : Path → m (Except IoError Unit)
  /-- Runs a program with arguments to its end. -/
  run : Path → List String → m (Except IoError ProgramResult)

namespace Host

variable {m : Type → Type} [Monad m]

/-- Whether a file stands at the path. -/
def isFile (host : Host m) (p : Path) : m Bool := return (← host.kind? p) == some .file

/-- Whether a directory stands at the path. -/
def isDirectory (host : Host m) (p : Path) : m Bool := return (← host.kind? p) == some .directory

end Host
end Stubwright

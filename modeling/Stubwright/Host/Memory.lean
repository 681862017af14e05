import Stubwright.Host.FileTree
import Stubwright.Host.Shell.Run

/-!
# A machine in memory

A `Memory` is a file tree with a working directory. Its host does what a system would: paths are
followed from the working directory, a fresh name is the first numbered one that nothing has, a few
programs can be found by name alone, and a file that may be executed is run as a shell script.
-/

namespace Stubwright.Host

/-- A machine whose files are in memory. -/
structure Memory where
  tree : FileTree := {}
  /-- The working directory. -/
  base : Place := []
  deriving DecidableEq, Repr, Inhabited

namespace Memory

/-- The absolute path of a place. -/
def absolute (place : Place) : Path := ⟨"/" ++ "/".intercalate place⟩

/-- The machine with an empty working directory at the given place. -/
def atPlace (place : Place) : Memory where
  tree := ⟨(List.range place.length).map fun n => (place.take (n + 1), .directory)⟩
  base := place

/-- The number of characters that make a name fresh. -/
def freshLength : Nat := 6

/-- A number in digits, with zeros in front to make up the length. -/
def padded (n : Nat) : String :=
  let digits := toString n
  String.ofList (List.replicate (freshLength - digits.length) '0') ++ digits

/-- The first numbered name with the given stem that nothing in the tree has. -/
def freshName (tree : FileTree) (stem : String) : String :=
  let taken := tree.entries.filterMap (·.1.getLast?)
  let candidates := (List.range (taken.length + 1)).map fun n => stem ++ padded n
  (candidates.find? (!taken.contains ·)).getD stem

/-- Replaces the tree, if the operation succeeds. -/
def update (f : FileTree → Place → Except IoError FileTree) : StateM Memory (Except IoError Unit) :=
  fun memory =>
    match f memory.tree memory.base with
    | .ok tree => (.ok (), { memory with tree })
    | .error e => (.error e, memory)

/-- Creates something of a fresh name in a directory and gives its absolute path, which the error
names too. -/
def createFresh (stem : String) (directory : Path)
    (create : FileTree → Place → Path → Except IoError FileTree) :
    StateM Memory (Except IoError Path) := fun memory =>
  let path := ((absolute memory.base).join directory).join ⟨freshName memory.tree stem⟩
  match create memory.tree memory.base path with
  | .ok tree => (.ok path, { memory with tree })
  | .error e => (.error (.located e path.text), memory)

/-- A content as reads of at most `size` bytes. -/
def chunks (size : Nat) (content : Bytes) : List ReadResult :=
  if size = 0 ∨ content.length ≤ size then
    if content.isEmpty then [] else [.chunk content]
  else .chunk (content.take size) :: chunks size (content.drop size)
termination_by content.length
decreasing_by simp only [List.length_drop]; omega

/-! ### Programs -/

/-- The programs that are found by name alone. -/
def installed (name : String) (args : List String) : Option ProgramResult :=
  match name with
  | "echo" => some ⟨some 0, Text.utf8 (" ".intercalate args ++ "\n"), []⟩
  | "true" => some ⟨some 0, [], []⟩
  | "false" => some ⟨some 1, [], []⟩
  | _ => none

/-- The interpreter the first line of a script names. -/
def interpreter? (text : String) : Option String :=
  match text.toList with
  | '#' :: '!' :: rest =>
    let line := (rest.takeWhile (· != '\n')).dropWhile fun c => c == ' ' || c == '\t'
    some (String.ofList (line.takeWhile fun c => c != ' ' && c != '\t'))
  | _ => none

/-- The interpreters that run shell scripts. -/
def shells : List String := ["/bin/sh", "/usr/bin/sh", "/bin/bash", "/usr/bin/bash", "/bin/dash"]

/-- Runs the file at a path. -/
def runFile (program : Path) (args : List String) (memory : Memory) :
    Except IoError ProgramResult × Memory :=
  match memory.tree.find memory.base program with
  | .error e => (.error e, memory)
  | .ok (_, .directory) => (.error (.system Errno.accessDenied), memory)
  | .ok (_, .file _ false) => (.error (.system Errno.accessDenied), memory)
  | .ok (_, .file content true) =>
    match interpreter? (Text.ofUtf8Lossy content) with
    | none => (.error (.system Errno.execFormat), memory)
    | some interpreter =>
      if shells.contains interpreter then
        let (tree, result) :=
          Shell.runScript memory.tree memory.base (Text.ofUtf8Lossy content) program.text args
        (.ok result, { memory with tree })
      else (.error (.system Errno.noEntry), memory)

/-- Runs a program: a name without a slash is looked up among the installed ones. -/
def runProgram (program : Path) (args : List String) :
    StateM Memory (Except IoError ProgramResult) := fun memory =>
  if (program.text :: args).any (·.toList.contains '\x00') then
    (.error (.described "nul byte found in provided data"), memory)
  else if program.text.toList.contains '/' then runFile program args memory
  else if program.text == "." || program.text == ".." then
    (.error (.system Errno.accessDenied), memory)
  else match installed program.text args with
    | some result => (.ok result, memory)
    | none => (.error (.system Errno.noEntry), memory)

/-! ### The host -/

/-- The operations of the machine. -/
def host : Host (StateM Memory) where
  kind? path := fun memory =>
    match memory.tree.find memory.base path with
    | .ok (_, .directory) => (some .directory, memory)
    | .ok (_, .file _ _) => (some .file, memory)
    | .error _ => (none, memory)
  read path size := fun memory =>
    match memory.tree.find memory.base path with
    | .ok (_, .directory) => (.ok [.failed (.system Errno.isDirectory)], memory)
    | .ok (_, .file content _) => (.ok (chunks size content), memory)
    | .error e => (.error e, memory)
  makeDirectory path := update fun tree base => tree.makeDirectory base path
  stage directory := createFresh stagingStem directory FileTree.createFile
  append path more := update fun tree base => tree.append base path more
  rename old new := update fun tree base => tree.rename base old new
  discard path := do
    let _ ← update fun tree base => tree.removeFile base path
  makeScratch directory := createFresh scratchStem directory FileTree.makeDirectory
  removeTree path := do
    match ← update fun tree base => tree.removeTree base path with
    | .ok () => return .ok ()
    | .error e => return .error (.located e path.text)
  run := runProgram

end Memory
end Stubwright.Host

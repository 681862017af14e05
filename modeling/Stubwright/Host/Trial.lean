import Stubwright.Host.Memory

/-!
# A machine on which operations fail

    operation, turn ──▶ answer, trees passed through

A `Trial` is a machine in memory together with what befalls its operations one after the other: each
of them works, is refused, or breaks off on the way. What works does what it does in memory. The
trees that the machine passes through are kept, those within an operation too: a file grows byte by
byte, and a directory is removed entry by entry, so that all is seen that others could see.

Two things are taken for granted. A file is renamed in one step or not at all, and a file that is
discarded can be removed.
-/

namespace Stubwright.Host

/-- What befalls an operation. -/
inductive Turn where
  /-- It is carried out. The number is drawn for a fresh name. -/
  | works (draw : Nat)
  /-- It fails and does nothing. -/
  | refused (error : IoError)
  /-- It fails when so much of it is done. -/
  | broken (reached : Nat) (error : IoError)
  deriving DecidableEq, Repr

/-- A machine whose operations may fail. -/
structure Trial where
  memory : Memory
  /-- What befalls the operations to come. Beyond them all work. -/
  turns : List Turn := []
  /-- The trees the machine passed through, the latest last. -/
  passed : List FileTree := []
  deriving DecidableEq, Repr

namespace Trial

/-- Takes a turn: an operation answers and passes through some trees, the last of which stays. -/
def perform {α : Type} (act : Turn → Memory → α × List FileTree) : StateM Trial α := fun trial =>
  let (answer, trees) := act (trial.turns.headD (.works 0)) trial.memory
  (answer, {
    memory := { trial.memory with tree := trees.getLastD trial.memory.tree }
    turns := trial.turns.tail
    passed := trial.passed ++ trees })

/-- What changes the tree in one step, or fails. -/
def atOnce {α : Type} (answer : α) :
    Except IoError FileTree → Except IoError α × List FileTree
  | .ok tree => (.ok answer, [tree])
  | .error e => (.error e, [])

/-- An operation that changes the tree in one step. -/
def step (f : FileTree → Place → Except IoError FileTree) :
    Turn → Memory → Except IoError Unit × List FileTree
  | .works _, memory => atOnce () (f memory.tree memory.base)
  | .refused e, _ | .broken _ e, _ => (.error e, [])

/-- The path of a fresh name in a directory. -/
def freshPath (memory : Memory) (stem : String) (directory : Path) (draw : Nat) : Path :=
  ((Memory.absolute memory.base).join directory).join ⟨stem ++ Memory.padded draw⟩

/-- Creates something of a fresh name in a directory and gives its absolute path, which the error of a
creation that works names too. -/
def createFresh (stem : String) (directory : Path)
    (create : FileTree → Place → Path → Except IoError FileTree) :
    Turn → Memory → Except IoError Path × List FileTree
  | .works draw, memory =>
    let path := freshPath memory stem directory draw
    atOnce path ((create memory.tree memory.base path).mapError (.located · path.text))
  | .refused e, _ | .broken _ e, _ => (.error e, [])

/-- The trees in which a file grows by the first bytes of `more`, up to so many. -/
def growing (memory : Memory) (path : Path) (more : Bytes) (count : Nat) :
    Except IoError (List FileTree) :=
  (List.range (count + 1)).mapM fun n => memory.tree.append memory.base path (more.take n)

/-- Writes at the end of a file. -/
def append (path : Path) (more : Bytes) : Turn → Memory → Except IoError Unit × List FileTree
  | .works _, memory =>
    match growing memory path more more.length with
    | .ok trees => (.ok (), trees)
    | .error e => (.error e, [])
  | .refused e, _ => (.error e, [])
  | .broken reached e, memory =>
    match growing memory path more reached with
    | .ok trees => (.error e, trees)
    | .error e => (.error e, [])

/-- Reads a file; a read that breaks off has given the first chunks. -/
def read (path : Path) (size : Nat) :
    Turn → Memory → Except IoError (List ReadResult) × List FileTree
  | .works _, memory => ((Memory.host.read path size memory).1, [])
  | .refused e, _ => (.error e, [])
  | .broken reached e, memory =>
    ((Memory.host.read path size memory).1.map fun reads => reads.take reached ++ [.failed e], [])

/-- The tree without the last entries below a place, so many of them. -/
def unlinked (tree : FileTree) (place : Place) (count : Nat) : FileTree :=
  ((tree.below place).reverse.take count).foldl (fun tree entry => tree.erase (place ++ entry.1)) tree

/-- Removes a directory, after all entries below it. -/
def removeTree (path : Path) : Turn → Memory → Except IoError Unit × List FileTree
  | .refused e, _ => (.error (.located e path.text), [])
  | .works _, memory =>
    match memory.tree.find memory.base path with
    | .ok (place, .directory) =>
      (.ok (), (List.range (memory.tree.below place).length).map (unlinked memory.tree place) ++
        [memory.tree.eraseBelow place])
    | .ok (_, .file _ _) => (.error (.located (.system Errno.notDirectory) path.text), [])
    | .error e => (.error (.located e path.text), [])
  | .broken reached e, memory =>
    match memory.tree.find memory.base path with
    | .ok (place, .directory) =>
      (.error (.located e path.text),
        (List.range (reached + 1)).map (unlinked memory.tree place))
    | .ok (_, .file _ _) => (.error (.located (.system Errno.notDirectory) path.text), [])
    | .error e => (.error (.located e path.text), [])

/-- The operations of the machine. -/
def host : Host (StateM Trial) where
  kind? path := perform fun turn memory =>
    match turn with
    | .works _ => ((Memory.host.kind? path memory).1, [])
    | .refused _ | .broken _ _ => (none, [])
  read path size := perform (read path size)
  makeDirectory path := perform (step fun tree base => tree.makeDirectory base path)
  stage directory := perform (createFresh stagingStem directory FileTree.createFile)
  append path more := perform (append path more)
  rename old new := perform (step fun tree base => tree.rename base old new)
  discard path := perform fun _ memory =>
    match memory.tree.removeFile memory.base path with
    | .ok tree => ((), [tree])
    | .error _ => ((), [])
  makeScratch directory := perform (createFresh scratchStem directory FileTree.makeDirectory)
  removeTree path := perform (removeTree path)
  run program args := perform fun turn memory =>
    match turn with
    | .works _ =>
      let (result, after) := Memory.runProgram program args memory
      (result, [after.tree])
    | .refused e | .broken _ e => (.error e, [])

end Trial
end Stubwright.Host

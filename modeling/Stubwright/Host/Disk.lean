import Stubwright.Host.Basic

/-!
# The disk

The host of the system's own files. A directory is told from a file by opening and reading it: only
reading a directory fails with the number for directories. Programs of the system are not run from
here, so every one of them is reported as missing.
-/

namespace Stubwright.Host.Disk

/-- The failure that an exception of the system stands for. -/
def failureOf : IO.Error → IoError
  | .userError text => .described text
  | .unexpectedEof => .described "unexpected end of file"
  | .alreadyExists _ code _ | .otherError code _ | .resourceBusy code _
  | .resourceVanished code _ | .unsupportedOperation code _ | .hardwareFault code _
  | .unsatisfiedConstraints code _ | .illegalOperation code _ | .protocolError code _
  | .timeExpired code _ | .interrupted _ code _ | .noFileOrDirectory _ code _
  | .invalidArgument _ code _ | .permissionDenied _ code _ | .resourceExhausted _ code _
  | .inappropriateType _ code _ | .noSuchThing _ code _ => .system code.toNat

/-- Does something and gives its failure as a value. -/
def attempt {α : Type} (act : IO α) : IO (Except IoError α) := do
  match ← act.toBaseIO with
  | .ok a => return .ok a
  | .error e => return .error (failureOf e)

/-- Reads an open file until there is nothing more, or a failure. -/
partial def readFrom (file : IO.FS.Handle) (size : Nat) (before : List ReadResult) :
    IO (List ReadResult) := do
  match ← (file.read size.toUSize).toBaseIO with
  | .error (.interrupted _ _ _) => readFrom file size (.interrupted :: before)
  | .error e => return (.failed (failureOf e) :: before).reverse
  | .ok bytes =>
    if bytes.isEmpty then return before.reverse
    else readFrom file size (.chunk bytes.toList :: before)

/-- The characters that make a name fresh. -/
def nameCharacters : List Char :=
  "ABCDEFGHIJKLMNOPQRSTUVWXYZabcdefghijklmnopqrstuvwxyz0123456789".toList

/-- A name with six characters drawn at random. -/
def freshName (stem : String) : IO String := do
  let drawn ← (List.range 6).mapM fun _ => do
    return nameCharacters.getD (← IO.rand 0 (nameCharacters.length - 1)) 'a'
  return stem ++ String.ofList drawn

/-- Creates something of a fresh name in a directory and gives its absolute path, which the failure
names too. -/
def createFresh (stem : String) (directory : Path) (create : Path → IO Unit) :
    IO (Except IoError Path) := do
  let working : Path := ⟨toString (← IO.currentDir)⟩
  let path := (working.join directory).join ⟨← freshName stem⟩
  match ← attempt (create path) with
  | .ok () => return .ok path
  | .error e => return .error (.located e path.text)

/-- What stands at a path. -/
def kindOf (path : Path) : IO (Option EntryKind) := do
  match ← attempt (IO.FS.Handle.mk path.text .read) with
  | .error _ => return none
  | .ok file =>
    match ← attempt (file.read 1) with
    | .error (.system code) =>
      return some (if code = Errno.isDirectory then .directory else .file)
    | _ => return some .file

/-- The operations on the system's files. -/
def host : Host IO where
  kind? := kindOf
  read path size := do
    match ← attempt (IO.FS.Handle.mk path.text .read) with
    | .error e => return .error e
    | .ok file => return .ok (← readFrom file size [])
  makeDirectory path := attempt (IO.FS.createDir path.text)
  stage directory := createFresh stagingStem directory fun path => do
    let _ ← IO.FS.Handle.mk path.text .writeNew
  append path more := attempt do
    let file ← IO.FS.Handle.mk path.text .append
    file.write ⟨more.toArray⟩
  rename old new := attempt (IO.FS.rename old.text new.text)
  discard path := do
    let _ ← attempt (IO.FS.removeFile path.text)
  makeScratch directory := createFresh scratchStem directory fun path => IO.FS.createDir path.text
  removeTree path := do
    match ← attempt (IO.FS.removeDirAll path.text) with
    | .ok () => return .ok ()
    | .error e => return .error (.located e path.text)
  run _ _ := return .error (.system Errno.noEntry)

end Stubwright.Host.Disk

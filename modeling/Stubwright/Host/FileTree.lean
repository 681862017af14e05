import Stubwright.Host.Basic

/-!
# File trees

A file tree says what stands under each sequence of names below the root. Operations take paths as
written: a path is followed name by name from the root or from a working directory, through
directories only. They fail with the errors of a system that knows no links and lets everyone do
everything.
-/

namespace Stubwright.Host

/-- A place in a tree: the names from the root on. -/
abbrev Place := List String

/-- What stands at a place. -/
inductive Node where
  | directory
  | file (content : Bytes) (executable : Bool)
  deriving DecidableEq, Repr, Inhabited

/-- What stands where. The root is a directory and not listed. -/
structure FileTree where
  entries : List (Place × Node) := []
  deriving DecidableEq, Repr, Inhabited

namespace FileTree

/-- What stands at a place. -/
def get? (t : FileTree) (place : Place) : Option Node :=
  if place.isEmpty then some .directory else t.entries.lookup place

/-- The tree with another node at one place. -/
def set (t : FileTree) (place : Place) (node : Node) : FileTree :=
  ⟨(place, node) :: t.entries.filter (·.1 != place)⟩

/-- The tree with nothing at one place. -/
def erase (t : FileTree) (place : Place) : FileTree := ⟨t.entries.filter (·.1 != place)⟩

/-- The tree with nothing at a place or below it. -/
def eraseBelow (t : FileTree) (place : Place) : FileTree :=
  ⟨t.entries.filter (fun e => !place.isPrefixOf e.1)⟩

/-- Entries kept by their places are found as before, all others no more. -/
theorem lookup_filter (p : Place → Bool) (entries : List (Place × Node)) (place : Place) :
    (entries.filter (p ·.1)).lookup place = if p place then entries.lookup place else none := by
  induction entries with
  | nil => simp
  | cons entry entries ih =>
    obtain ⟨key, node⟩ := entry
    by_cases hkey : place = key
    · subst hkey
      cases hp : p place <;> simp [hp, ih]
    · have hne : (place == key) = false := beq_eq_false_iff_ne.mpr hkey
      cases hp : p key <;> simp [List.lookup_cons, hp, hne, ih]

theorem get?_set {t : FileTree} {place : Place} {node : Node} (h : place ≠ []) (other : Place) :
    (t.set place node).get? other = if other = place then some node else t.get? other := by
  by_cases heq : other = place
  · subst heq
    simp [get?, set, h]
  · have hne : (other == place) = false := beq_eq_false_iff_ne.mpr heq
    simp [get?, set, List.lookup_cons, hne, heq, lookup_filter (fun key => key != place)]

theorem get?_erase {t : FileTree} {place : Place} (h : place ≠ []) (other : Place) :
    (t.erase place).get? other = if other = place then none else t.get? other := by
  by_cases heq : other = place
  · subst heq
    simp [get?, erase, h, lookup_filter (fun key => key != other)]
  · simp [get?, erase, heq, lookup_filter (fun key => key != place)]

theorem get?_eraseBelow {t : FileTree} {place other : Place} (h : place ≠ []) :
    (t.eraseBelow place).get? other =
      if place.isPrefixOf other then none else t.get? other := by
  cases other with
  | nil =>
    cases place with
    | nil => exact absurd rfl h
    | cons name names => simp [get?, List.isPrefixOf]
  | cons name names =>
    simp only [get?, eraseBelow, List.isEmpty_cons, Bool.false_eq_true, if_false]
    rw [lookup_filter (fun key => !place.isPrefixOf key)]
    cases place.isPrefixOf (name :: names) <;> rfl

/-- The order of places in which a directory comes before what it holds and its names are sorted. -/
def placeLe : Place → Place → Bool
  | [], _ => true
  | _ :: _, [] => false
  | a :: p, b :: q => if a == b then placeLe p q else a < b

/-- What stands below a place, each place without the names above it, in order. -/
def below (t : FileTree) (place : Place) : List (Place × Node) :=
  let inside := t.entries.filter fun e => place.isPrefixOf e.1 && e.1 != place
  (inside.map fun e => (e.1.drop place.length, e.2)).mergeSort fun a b => placeLe a.1 b.1

/-! ### Following paths -/

/-- The most bytes of a name, and of a path. -/
def nameLimit : Nat := 255

def pathLimit : Nat := 4095

/-- Whether a path holds the character that ends texts for the system, so that no system call takes
it. -/
def holdsNul (p : Path) : Bool := p.text.toList.contains '\x00'

/-- A path that no tree can answer. -/
def checkPath (p : Path) : Except IoError Unit :=
  if holdsNul p then
    .error (.described "file name contained an unexpected NUL byte")
  else if p.isEmpty then .error (.system Errno.noEntry)
  else if p.text.utf8ByteSize > pathLimit then .error (.system Errno.nameTooLong)
  else .ok ()

/-- One step down a path from `place`, which has to be a directory. -/
def descend (t : FileTree) (place : Place) (name : String) : Except IoError Place :=
  match t.get? place with
  | none => .error (.system Errno.noEntry)
  | some (.file _ _) => .error (.system Errno.notDirectory)
  | some .directory =>
    if name.isEmpty || name == "." then .ok place
    else if name == ".." then .ok place.dropLast
    else if name.utf8ByteSize > nameLimit then .error (.system Errno.nameTooLong)
    else .ok (place ++ [name])

/-- The place a sequence of names leads to from `place`; all but the last step lead to something. -/
def follow (t : FileTree) (place : Place) : List String → Except IoError Place
  | [] => .ok place
  | name :: rest => do
    let next ← t.descend place name
    t.follow next rest

/-- The names of a path, with the place they are followed from. -/
def startOf (base : Place) (p : Path) : Place × List String :=
  let names := Text.pieces (· == '/') p.text
  if p.isAbsolute then ([], names) else (base, names)

/-- What stands at a path seen from `base`, and where. -/
def find (t : FileTree) (base : Place) (p : Path) : Except IoError (Place × Node) := do
  checkPath p
  let (start, names) := startOf base p
  let place ← t.follow start names
  match t.get? place with
  | some node => return (place, node)
  | none => throw (.system Errno.noEntry)

/-- Where a new entry goes: the directory, the last name, and whether slashes follow it. A path whose
last step is no name gives `none` for the name. -/
structure Slot where
  parent : Place
  name? : Option String
  slashed : Bool
  deriving DecidableEq, Repr

/-- The slot a path names. -/
def slot (t : FileTree) (base : Place) (p : Path) : Except IoError Slot := do
  checkPath p
  let (start, names) := startOf base p
  let slashed := names.getLast? == some ""
  let names := (names.reverse.dropWhile (·.isEmpty)).reverse
  let parent ← t.follow start names.dropLast
  match t.get? parent with
  | none => throw (.system Errno.noEntry)
  | some (.file _ _) => throw (.system Errno.notDirectory)
  | some .directory =>
    match names.getLast? with
    | none => return ⟨parent, none, slashed⟩
    | some name =>
      if name == "." || name == ".." then return ⟨parent, none, slashed⟩
      else if name.utf8ByteSize > nameLimit then throw (.system Errno.nameTooLong)
      else return ⟨parent, some name, slashed⟩

/-! ### Operations -/

/-- Creates a directory. -/
def makeDirectory (t : FileTree) (base : Place) (p : Path) : Except IoError FileTree := do
  let slot ← t.slot base p
  match slot.name? with
  | none => throw (.system Errno.alreadyExists)
  | some name =>
    let place := slot.parent ++ [name]
    if (t.get? place).isSome then throw (.system Errno.alreadyExists)
    return t.set place .directory

/-- Creates an empty file where there is nothing. -/
def createFile (t : FileTree) (base : Place) (p : Path) : Except IoError FileTree := do
  let slot ← t.slot base p
  match slot.name? with
  | none => throw (.system Errno.isDirectory)
  | some name =>
    let place := slot.parent ++ [name]
    if slot.slashed then throw (.system Errno.isDirectory)
    if (t.get? place).isSome then throw (.system Errno.alreadyExists)
    return t.set place (.file [] false)

/-- Gives a file new content, creating it if nothing is there. -/
def writeFile (t : FileTree) (base : Place) (p : Path) (content : Bytes)
    (executable : Bool) : Except IoError FileTree := do
  let slot ← t.slot base p
  match slot.name? with
  | none => throw (.system Errno.isDirectory)
  | some name =>
    let place := slot.parent ++ [name]
    match t.get? place with
    | some .directory => throw (.system Errno.isDirectory)
    | _ =>
      if slot.slashed then throw (.system Errno.isDirectory)
      return t.set place (.file content executable)

/-- The content of a file. -/
def readFile (t : FileTree) (base : Place) (p : Path) : Except IoError Bytes := do
  match ← t.find base p with
  | (_, .directory) => throw (.system Errno.isDirectory)
  | (_, .file content _) => return content

/-- Writes at the end of a file. -/
def append (t : FileTree) (base : Place) (p : Path) (more : Bytes) : Except IoError FileTree := do
  match ← t.find base p with
  | (_, .directory) => throw (.system Errno.isDirectory)
  | (place, .file content executable) => return t.set place (.file (content ++ more) executable)

/-- Puts a file into another place. A directory is not replaced. A path that no system call takes is
an invalid argument here, before either is looked at. -/
def rename (t : FileTree) (base : Place) (old new : Path) : Except IoError FileTree := do
  if holdsNul old || holdsNul new then throw (.system Errno.invalidArgument)
  let (oldPlace, node) ← t.find base old
  let slot ← t.slot base new
  match slot.name? with
  | none => throw (.system Errno.busy)
  | some name =>
    let place := slot.parent ++ [name]
    if slot.slashed then throw (.system Errno.notDirectory)
    if t.get? place == some .directory then throw (.system Errno.isDirectory)
    return (t.erase oldPlace).set place node

/-- Removes a file. -/
def removeFile (t : FileTree) (base : Place) (p : Path) : Except IoError FileTree := do
  match ← t.find base p with
  | (_, .directory) => throw (.system Errno.isDirectory)
  | (place, .file _ _) => return t.erase place

/-- Removes a directory and all it holds. -/
def removeTree (t : FileTree) (base : Place) (p : Path) : Except IoError FileTree := do
  match ← t.find base p with
  | (_, .file _ _) => throw (.system Errno.notDirectory)
  | (place, .directory) => return t.eraseBelow place

end FileTree
end Stubwright.Host

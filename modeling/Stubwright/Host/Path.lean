import Stubwright.Text.Cut

/-!
# Paths

A path is kept as it was written; nothing is normalised. Its last component is found by looking past
trailing slashes and `/.`, the parent ends before that component, and an extension follows the last
dot of a file name that does not start with it.
-/

namespace Stubwright

/-- A path as text. -/
structure Path where
  text : String
  deriving DecidableEq, Repr, Inhabited

namespace Path

/-- The path of the working directory as relative paths name it. -/
def here : Path := ⟨"."⟩

/-- Whether the path starts at the root. -/
def isAbsolute (p : Path) : Bool := p.text.toList.head? == some '/'

/-- Whether the path has no text. -/
def isEmpty (p : Path) : Bool := p.text.isEmpty

/-- `q` seen from `p`: an absolute `q` stands for itself, otherwise one slash is put between the two
unless `p` ends with one or is empty. -/
def join (p q : Path) : Path :=
  if q.isAbsolute then q
  else if p.isEmpty || p.text.toList.getLast? == some '/' then ⟨p.text ++ q.text⟩
  else ⟨p.text ++ "/" ++ q.text⟩

/-- `p` followed by the given segments, each joined in turn. -/
def joinAll (p : Path) (segments : List String) : Path :=
  segments.foldl (fun path s => path.join ⟨s⟩) p

/-! ### The last component -/

/-- A reversed path without the slashes and single dots after its last component. -/
def dropTrailing : List Char → List Char
  | ['/'] => ['/']
  | '/' :: rest => dropTrailing rest
  | '.' :: '/' :: rest => dropTrailing ('/' :: rest)
  | cs => cs

/-- The reversed path up to its last component. -/
def trailing (p : Path) : List Char := dropTrailing p.text.toList.reverse

/-- The path without its last component; the root and the empty path have no parent. -/
def parent? (p : Path) : Option Path :=
  match p.trailing with
  | [] => none
  | ['/'] => none
  | cs => some ⟨String.ofList (dropTrailing (cs.dropWhile (· != '/'))).reverse⟩

/-- The last component, if it is a name. -/
def fileName? (p : Path) : Option String :=
  let name := String.ofList (p.trailing.takeWhile (· != '/')).reverse
  if name.isEmpty || name == "." || name == ".." then none else some name

/-- A file name before and after its last dot. A name whose only dot stands first has no extension. -/
def splitExtension? (name : String) : Option (String × String) :=
  match Text.cutLast? (· == '.') name.toList with
  | some (c :: stem, ext) => some (String.ofList (c :: stem), String.ofList ext)
  | _ => none

/-- The extension of the file name. -/
def extension? (p : Path) : Option String :=
  match p.fileName? with
  | some name => (splitExtension? name).map (·.2)
  | none => none

/-- The path with another extension; what follows the file name is dropped. A path without a file
name is left alone. So is one whose name is `..` once its extension is gone: it names no file then,
and the new extension has no place to go. -/
def withExtension (p : Path) (ext : String) : Path :=
  match p.fileName? with
  | none => p
  | some name =>
    let before := String.ofList (p.trailing.dropWhile (· != '/')).reverse
    let stem := ((splitExtension? name).map (·.1)).getD name
    if stem == "." && p.trailing == p.text.toList.reverse then ⟨before ++ ".."⟩
    else ⟨before ++ stem ++ "." ++ ext⟩

end Path
end Stubwright

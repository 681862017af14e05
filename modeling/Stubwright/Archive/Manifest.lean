/-!
# Manifests

    headers ──render──▶ manifest text

The manifest of an archive names the class to start. A header is one line of `name: value`; a line
holds at most `lineWidth` bytes, and what does not fit goes on in lines that start with one space. A
character is never split between lines. Lines end with carriage return and line feed, and an empty
line ends the manifest.
-/

namespace Stubwright.Archive

/-- What an archive says about itself. -/
structure Manifest where
  mainClass : String
  deriving DecidableEq, Repr, Inhabited

namespace Manifest

/-- The name of the manifest inside an archive. -/
def entryName : String := "META-INF/MANIFEST.MF"

/-- The most bytes of a line, its end not counted. -/
def lineWidth : Nat := 72

/-- The end of a line. -/
def lineEnd : List Char := ['\r', '\n']

/-- Writes the characters of a header; the current line holds `width` bytes already. -/
def fold (width : Nat) : List Char → List Char
  | [] => []
  | c :: cs =>
    if width + c.utf8Size > lineWidth then
      lineEnd ++ ' ' :: c :: fold (1 + c.utf8Size) cs
    else c :: fold (width + c.utf8Size) cs

/-- The lines of one header. -/
def header (name value : String) : List Char := fold 0 (name ++ ": " ++ value).toList ++ lineEnd

/-- The text of the manifest. -/
def render (manifest : Manifest) : String :=
  String.ofList
    (header "Manifest-Version" "1.0" ++ header "Main-Class" manifest.mainClass ++ lineEnd)

end Manifest
end Stubwright.Archive

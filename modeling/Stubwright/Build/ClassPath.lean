import Stubwright.Host.Path

/-!
# Class paths

    CLASSPATH ──split──▶ entries ──search──▶ entries ──join?──▶ argument

A class path is a list of paths; as one text its entries are separated by colons. An entry that holds
a colon has no place in it. Empty entries of the environment's class path are dropped, all others are
kept.
-/

namespace Stubwright.Build

/-- The paths a compiler looks into, in order. -/
abbrev ClassPath := List Path

namespace ClassPath

/-- The character between entries. -/
def separator : Char := ':'

/-- The entries of a class path given as text. -/
def split (text : String) : ClassPath := (Text.pieces (· == separator) text).map (⟨·⟩)

/-- The class path of a build: its scratch directory, the environment's class path if it is given,
and the configured entries. -/
def search (scratch : Path) (inherited? : Option String) (configured : ClassPath) : ClassPath :=
  let inherited := match inherited? with
    | some text => (split text).filter (!·.isEmpty)
    | none => []
  scratch :: inherited ++ configured

/-- The class path as one text, if no entry holds a separator. -/
def join? (entries : ClassPath) : Option String :=
  if entries.any (·.text.toList.contains separator) then none
  else some (separator.toString.intercalate (entries.map (·.text)))

end ClassPath
end Stubwright.Build

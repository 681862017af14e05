import Stubwright.Text.Letter
import Stubwright.Text.Cut

/-!
# Identifiers and binary names

An identifier is a letter, underscore or dollar sign followed by letters, digits and these two, and
is none of the reserved words. A binary name is a sequence of identifiers with a dot or a dollar sign
between each two: the dollar sign is a separator there, so no segment of a binary name holds one.
-/

namespace Stubwright.Java

/-- The words of the language that are no identifiers. -/
def reservedWords : List String := [
  "abstract", "assert", "boolean", "break", "byte", "case", "catch", "char", "class", "const",
  "continue", "default", "do", "double", "else", "enum", "extends", "final", "finally",
  "float", "for", "goto", "if", "implements", "import", "instanceof", "int", "interface",
  "long", "native", "new", "package", "private", "protected", "public", "return", "short",
  "static", "strictfp", "super", "switch", "synchronized", "this", "throw", "throws",
  "transient", "try", "void", "volatile", "while", "true", "false", "null", "_"]

/-- The characters an identifier may start with. -/
def isIdentifierStart (c : Char) : Bool := Text.isLetter c || c == '_' || c == '$'

/-- The characters an identifier may go on with. -/
def isIdentifierPart (c : Char) : Bool :=
  Text.isLetter c || Text.isDigit c || c == '_' || c == '$'

/-- Whether `s` is an identifier. -/
def isIdentifier (s : String) : Bool :=
  match s.toList with
  | [] => false
  | c :: rest => isIdentifierStart c && rest.all isIdentifierPart && !reservedWords.contains s

/-- The characters between the segments of a binary name. -/
def isNameSeparator (c : Char) : Bool := c == '.' || c == '$'

/-- Whether every segment of `s` is an identifier. -/
def isBinaryName (s : String) : Bool := (Text.pieces isNameSeparator s).all isIdentifier

end Stubwright.Java

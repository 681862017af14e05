import Stubwright.Java.Member

/-!
# Signatures

The head of a member as written in source text, with all types by their full names.
-/

namespace Stubwright.Stub

open Java

/-- A parameter: its type and its name. -/
def parameterText (p : Parameter) : String := p.type.canonicalName ++ " " ++ p.name

/-- The parameters without parentheses. -/
def parameterList (parameters : List Parameter) : String :=
  ", ".intercalate (parameters.map parameterText)

/-- The clause for the exceptions, with a blank in front; nothing if there are none. -/
def throwsClause (exceptions : List JavaType) : String :=
  if exceptions.isEmpty then ""
  else " throws " ++ ", ".intercalate (exceptions.map JavaType.canonicalName)

/-- The head of a member, up to its body. -/
def signature (m : Member) : String :=
  "public " ++ m.returns.canonicalName ++ " " ++ m.name ++ "(" ++ parameterList m.parameters ++
    ")" ++ throwsClause m.exceptions

end Stubwright.Stub

import Stubwright.Graph.Search
import Stubwright.Library.Basic

/-!
# The supertype graph

The nodes are type names and an edge leads from each declared type to its supertypes, as these are
written. Names that are not declared are leaves. A type is a subtype of itself and of every name it
reaches.
-/

namespace Stubwright.Library

/-- The supertypes of the type declared under `name`; none if there is no such type. -/
def supertypesOf (L : Library) (name : String) : List String :=
  match L.get? name with
  | some d => d.supertypes
  | none => []

/-- Whether `sub` is `sup` or reaches it. -/
def isSubtype (L : Library) (sub sup : String) : Bool :=
  Graph.leadsTo L.supertypesOf L.names sub sup

end Stubwright.Library

import Std.Data.HashMap
import Stubwright.Library.Basic

/-!
# Catalogs

    types  ──position──▶  0  1  2 …
    names  ──positions──▶ ▲  ▲  ▲

A catalog is a library in the making. It keeps its types in the order in which they were accepted
and, beside them, a table that leads from a name to the position of its type, so that looking up a
name is no search. Sequence and table are two records of the same thing, and every change has to be
made to both.

A request gives the catalog as it is afterwards and, if the request was refused, the refusal. A type
whose name is taken is refused; the types of another catalog are taken in one by one up to the first
whose name is taken.
-/

namespace Stubwright

open Java

/-- Declared types and where each of them is. -/
structure Catalog where
  /-- The types in the order in which they were accepted. -/
  types : Array Descriptor := #[]
  /-- The position of each name in `types`. -/
  positions : Std.HashMap String Nat := ∅

namespace Catalog

/-- The catalog without types. -/
def empty : Catalog := {}

/-- Whether the table has the name. -/
def has (c : Catalog) (name : String) : Bool := c.positions.contains name

/-- The type at the position that the table has for the name. -/
def get? (c : Catalog) (name : String) : Option Descriptor :=
  c.positions[name]?.bind (c.types[·]?)

/-- Adds a type at the end, unless its name is taken. -/
def add (c : Catalog) (d : Descriptor) : Catalog × Option DocumentError :=
  if c.has d.name then (c, some (.duplicate "type" d.name))
  else (⟨c.types.push d, c.positions.insert d.name c.types.size⟩, none)

/-- Adds types in order up to the first whose name is taken. -/
def addAll (c : Catalog) : List Descriptor → Catalog × Option DocumentError
  | [] => (c, none)
  | d :: rest =>
    match c.add d with
    | (c, some e) => (c, some e)
    | (c, none) => c.addAll rest

/-- Adds the types of another catalog. -/
def merge (c other : Catalog) : Catalog × Option DocumentError := c.addAll other.types.toList

/-- The library of the types in a catalog. -/
def library (c : Catalog) : Library := (Library.empty.addAll c.types.toList).1

end Catalog
end Stubwright

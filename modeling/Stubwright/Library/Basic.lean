import Stubwright.Java.Descriptor
import Stubwright.Library.Error

/-!
# Type libraries

A library is a sequence of type descriptors, no two of one name. Types are added at the end; a name
that is taken is refused and leaves the library as it was. Merging adds the types of another library
one by one and stops at the first name that is taken.
-/

namespace Stubwright

open Java

/-- The declared types, in declaration order. -/
structure Library where
  types : List Descriptor
  distinct : (types.map (·.name)).Nodup
  deriving DecidableEq

namespace Library

/-- The library that declares nothing. -/
def empty : Library := ⟨[], List.nodup_nil⟩

instance : Inhabited Library := ⟨empty⟩

/-- The declared names, in declaration order. -/
def names (L : Library) : List String := L.types.map (·.name)

/-- The type declared under exactly this name. -/
def get? (L : Library) (name : String) : Option Descriptor := L.types.find? (·.name == name)

/-- Whether a type is declared under exactly this name. -/
def declares (L : Library) (name : String) : Bool := (L.get? name).isSome

theorem declares_iff {L : Library} {name : String} : L.declares name = true ↔ name ∈ L.names := by
  simp [declares, get?, names, List.find?_isSome]

/-- Adds a type at the end, unless its name is taken. -/
def add (L : Library) (d : Descriptor) : Except DocumentError Library :=
  if h : L.declares d.name then .error (.duplicate "type" d.name)
  else .ok ⟨L.types ++ [d], by
    have hd : d.name ∉ L.names := fun hm => h (declares_iff.2 hm)
    simp only [List.map_append, List.map_cons, List.map_nil]
    refine List.nodup_append.2 ⟨L.distinct, by simp, fun a ha b hb heq => ?_⟩
    rw [List.mem_singleton.1 hb] at heq
    exact hd (heq ▸ ha)⟩

/-- Adds types in order up to the first whose name is taken: what the library is then, and the
refusal, if any. -/
def addAll (L : Library) : List Descriptor → Library × Option DocumentError
  | [] => (L, none)
  | d :: rest =>
    match L.add d with
    | .error e => (L, some e)
    | .ok L' => L'.addAll rest

/-- Adds every type of `other`, as `addAll` does. -/
def merge (L other : Library) : Library × Option DocumentError := L.addAll other.types

/-- Reads a name as a type name and describes that type. Primitive types and arrays have
descriptors of their own; a class or interface has to be declared under the name as read. -/
def resolve (L : Library) (name : String) : Except LibraryError Descriptor :=
  match JavaType.ofName? name with
  | some (.primitive p) => .ok (Descriptor.ofPrimitive p)
  | some (.array element) => .ok (Descriptor.ofArray element)
  | some (.reference binaryName) =>
    match L.get? binaryName with
    | some d => .ok d
    | none => .error (.typeNotFound binaryName)
  | none => .error (.typeNotFound (Text.trimmed name))

end Library
end Stubwright

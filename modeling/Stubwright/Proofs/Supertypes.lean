import Stubwright.Library.Supertypes
import Stubwright.Proofs.Search

/-!
# Names and types above a type

The supertype graph has two readings, and this file ties them together.

* On names: `Extends` leads from a declared name to each supertype its type lists, declared or not.
  `isSubtype` decides the reflexive and transitive closure (`isSubtype_iff`).
* On types: `Reaches` follows only supertypes that are declared, so that all its stations are types.

For declared types the two agree (`reaches_iff`).
-/

namespace Stubwright.Library

open Java

variable {L : Library}

/-! ## Looking up a name -/

/-- Types are told apart by their names. -/
theorem eq_of_name {d e : Descriptor} (hd : d ∈ L.types) (he : e ∈ L.types)
    (h : d.name = e.name) : d = e :=
  List.inj_on_of_nodup_map L.distinct hd he h

/-- A name is looked up to the one type declared under it. -/
theorem get?_eq_some_iff {name : String} {d : Descriptor} :
    L.get? name = some d ↔ d ∈ L.types ∧ d.name = name := by
  constructor
  · intro h
    exact ⟨List.mem_of_find?_eq_some h, by simpa using List.find?_some h⟩
  · rintro ⟨hd, rfl⟩
    cases hfound : L.get? d.name with
    | none => exact absurd (List.find?_eq_none.mp hfound d hd) (by simp)
    | some e =>
      have he : e ∈ L.types := List.mem_of_find?_eq_some hfound
      have hname : e.name = d.name := by simpa using List.find?_some hfound
      rw [eq_of_name he hd hname]

theorem get?_name {d : Descriptor} (hd : d ∈ L.types) : L.get? d.name = some d :=
  get?_eq_some_iff.mpr ⟨hd, rfl⟩

/-- A name is looked up in vain if no type is declared under it. -/
theorem get?_eq_none_iff {name : String} : L.get? name = none ↔ name ∉ L.names := by
  rw [← declares_iff, declares, Bool.not_eq_true, Option.isSome_eq_false_iff,
    Option.isNone_iff_eq_none]

theorem supertypesOf_name {d : Descriptor} (hd : d ∈ L.types) :
    L.supertypesOf d.name = d.supertypes := by
  rw [supertypesOf, get?_name hd]

/-- Names that are not declared are leaves. -/
theorem supertypesOf_eq_nil {name : String} (h : name ∉ L.names) : L.supertypesOf name = [] := by
  rw [supertypesOf, get?_eq_none_iff.mpr h]

/-! ## The graph of names -/

/-- The type declared under the first name lists the second one as a supertype. -/
def Extends (L : Library) : String → String → Prop := Graph.Edge L.supertypesOf

theorem extends_iff {a b : String} :
    L.Extends a b ↔ ∃ d ∈ L.types, d.name = a ∧ b ∈ d.supertypes := by
  constructor
  · intro h
    have h : b ∈ L.supertypesOf a := h
    unfold supertypesOf at h
    split at h
    · next d hget =>
      obtain ⟨hd, hname⟩ := get?_eq_some_iff.mp hget
      exact ⟨d, hd, hname, h⟩
    · cases h
  · rintro ⟨d, hd, rfl, hb⟩
    show b ∈ L.supertypesOf d.name
    rwa [supertypesOf_name hd]

/-- Being a subtype is being led there by supertypes, in any number of steps. -/
theorem isSubtype_iff {sub sup : String} :
    L.isSubtype sub sup = true ↔ Relation.ReflTransGen L.Extends sub sup := by
  rw [isSubtype]
  exact Graph.leadsTo_iff fun _ h => supertypesOf_eq_nil h

theorem isSubtype_refl (name : String) : L.isSubtype name name = true :=
  isSubtype_iff.mpr .refl

theorem isSubtype_trans {a b c : String} (hab : L.isSubtype a b = true)
    (hbc : L.isSubtype b c = true) : L.isSubtype a c = true :=
  isSubtype_iff.mpr ((isSubtype_iff.mp hab).trans (isSubtype_iff.mp hbc))

/-- A name that is not declared is below itself only. -/
theorem isSubtype_of_not_mem {sub : String} (h : sub ∉ L.names) (sup : String) :
    L.isSubtype sub sup = true ↔ sup = sub := by
  rw [isSubtype_iff]
  constructor
  · intro hsub
    rcases hsub.cases_head with hself | ⟨name, hstep, -⟩
    · exact hself.symm
    · have hstep : name ∈ L.supertypesOf sub := hstep
      rw [supertypesOf_eq_nil h] at hstep
      cases hstep
  · rintro rfl
    exact .refl

/-! ## The graph of types -/

/-- `T` is the second type or leads to it over declared supertypes. `T` itself need not be
declared. -/
inductive Reaches (L : Library) (T : Descriptor) : Descriptor → Prop
  | self : Reaches L T T
  | next {D E : Descriptor} {s : String} :
      Reaches L T D → s ∈ D.supertypes → L.get? s = some E → Reaches L T E

theorem Reaches.trans {T D E : Descriptor} (h : L.Reaches T D) (h' : L.Reaches D E) :
    L.Reaches T E := by
  induction h' with
  | self => exact h
  | next _ hs hget ih => exact ih.next hs hget

/-- Every type but the first is declared. -/
theorem Reaches.mem_types {T D : Descriptor} (hT : T ∈ L.types) (h : L.Reaches T D) :
    D ∈ L.types := by
  cases h with
  | self => exact hT
  | next _ _ hget => exact (get?_eq_some_iff.mp hget).1

/-- A declared type is reached once its name is. -/
theorem reaches_of_extends {T D : Descriptor} {name : String} (hT : T ∈ L.types)
    (h : Relation.ReflTransGen L.Extends T.name name) (hget : L.get? name = some D) :
    L.Reaches T D := by
  induction h generalizing D with
  | refl =>
    rw [get?_name hT, Option.some.injEq] at hget
    exact hget ▸ .self
  | @tail a b hTa hab ih =>
    have hab : b ∈ L.supertypesOf a := hab
    unfold supertypesOf at hab
    split at hab
    · next A hA => exact (ih hA).next hab hget
    · cases hab

/-- Between declared types, reaching is being a subtype. -/
theorem reaches_iff {T D : Descriptor} (hT : T ∈ L.types) (hD : D ∈ L.types) :
    L.Reaches T D ↔ L.isSubtype T.name D.name = true := by
  rw [isSubtype_iff]
  constructor
  · intro h
    clear hD
    induction h with
    | self => exact .refl
    | @next D E s hTD hs hget ih =>
      obtain ⟨-, rfl⟩ := get?_eq_some_iff.mp hget
      refine ih.tail ?_
      show E.name ∈ L.supertypesOf D.name
      rw [supertypesOf_name (hTD.mem_types hT)]
      exact hs
  · intro h
    exact reaches_of_extends hT h (get?_name hD)

end Stubwright.Library

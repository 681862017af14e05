import Stubwright.Proofs.Validation
import Stubwright.Stub.Inheritance

/-!
# Return types are strictly ordered

`isMoreSpecific` compares two return types by kind first: primitives come before all else, the root
class after all else, class names are compared by the supertype graph and arrays by their elements.
No type comes before itself (`isMoreSpecific_irrefl`), and in a valid library whose root class lists
no supertypes the comparison is transitive (`isMoreSpecific_trans`). So a return type that is narrowed
again and again stays below every type it has been compared with.
-/

namespace Stubwright.Stub

open Java

variable {L : Library}

/-- The root class, if it is declared, lists no supertypes. -/
def RootOnTop (L : Library) : Prop :=
  ∀ d ∈ L.types, d.name = "java.lang.Object" → d.supertypes = []

/-- Then nothing but itself is above it. -/
theorem RootOnTop.eq_root (hroot : RootOnTop L) {name : String}
    (h : L.isSubtype "java.lang.Object" name = true) : name = "java.lang.Object" := by
  rcases (Library.isSubtype_iff.mp h).cases_head with h | ⟨s, hs, -⟩
  · exact h.symm
  · have hs : s ∈ L.supertypesOf "java.lang.Object" := hs
    unfold Library.supertypesOf at hs
    split at hs
    · next d hd =>
      obtain ⟨hmem, hname⟩ := Library.get?_eq_some_iff.mp hd
      rw [hroot d hmem hname] at hs
      cases hs
    · cases hs

/-! ## The comparison kind by kind -/

theorem isMoreSpecific_primitive (p : Primitive) (current : JavaType) :
    isMoreSpecific L (.primitive p) current = !current.isPrimitive := by
  cases current <;> rfl

theorem not_isMoreSpecific_to_primitive (candidate : JavaType) (p : Primitive) :
    isMoreSpecific L candidate (.primitive p) = false := by
  cases candidate <;> rfl

theorem isMoreSpecific_references {sub sup : String} :
    isMoreSpecific L (.reference sub) (.reference sup) = true ↔
      sub ≠ sup ∧ (sup = "java.lang.Object" ∨ L.isSubtype sub sup = true) := by
  unfold isMoreSpecific rootClass
  by_cases hsup : sup = "java.lang.Object"
  · simp [hsup]
  · simp [hsup]

theorem isMoreSpecific_array_reference {element : JavaType} {sup : String} :
    isMoreSpecific L (.array element) (.reference sup) = true ↔ sup = "java.lang.Object" := by
  simp [isMoreSpecific, rootClass]

theorem isMoreSpecific_arrays {sub sup : JavaType} :
    isMoreSpecific L (.array sub) (.array sup) = true ↔
      sub.isPrimitive = false ∧ sup.isPrimitive = false ∧ isMoreSpecific L sub sup = true := by
  simp [isMoreSpecific, and_assoc]

/-! ## The order -/

theorem isMoreSpecific_irrefl (type : JavaType) : isMoreSpecific L type type = false := by
  induction type with
  | primitive p => rfl
  | reference name =>
    rw [Bool.eq_false_iff, ne_eq, isMoreSpecific_references]
    exact fun h => h.1 rfl
  | array element ih =>
    rw [Bool.eq_false_iff, ne_eq, isMoreSpecific_arrays, ih]
    exact fun h => Bool.false_ne_true h.2.2

/-- Class names: the middle name is not the root, as nothing is above that, so the two comparisons
are steps in the supertype graph, or the last name is the root. -/
theorem isMoreSpecific_references_trans (hL : L.validate = .ok ()) (hroot : RootOnTop L)
    {a b c : String} (hab : isMoreSpecific L (.reference a) (.reference b) = true)
    (hbc : isMoreSpecific L (.reference b) (.reference c) = true) :
    isMoreSpecific L (.reference a) (.reference c) = true := by
  rw [isMoreSpecific_references] at hab hbc ⊢
  obtain ⟨hneab, hab⟩ := hab
  obtain ⟨hnebc, hbc⟩ := hbc
  have hb : b ≠ "java.lang.Object" := by
    rintro rfl
    rcases hbc with rfl | hbc
    · exact hnebc rfl
    · exact hnebc (hroot.eq_root hbc).symm
  have hab : L.isSubtype a b = true := hab.resolve_left hb
  rcases hbc with rfl | hbc
  · refine ⟨?_, Or.inl rfl⟩
    rintro rfl
    exact hb (hroot.eq_root hab)
  · refine ⟨?_, Or.inr (Library.isSubtype_trans hab hbc)⟩
    rintro rfl
    exact hneab (Library.isSubtype_antisymm hL hab hbc)

theorem isMoreSpecific_trans (hL : L.validate = .ok ()) (hroot : RootOnTop L) {a b c : JavaType}
    (hab : isMoreSpecific L a b = true) (hbc : isMoreSpecific L b c = true) :
    isMoreSpecific L a c = true := by
  induction a generalizing b c with
  | primitive p =>
    rw [isMoreSpecific_primitive] at hab ⊢
    cases c with
    | primitive q =>
      rw [not_isMoreSpecific_to_primitive] at hbc
      cases hbc
    | reference name => rfl
    | array element => rfl
  | reference a =>
    cases b with
    | primitive q => cases hab
    | array element => cases hab
    | reference b =>
      cases c with
      | primitive q => cases hbc
      | array element => cases hbc
      | reference c => exact isMoreSpecific_references_trans hL hroot hab hbc
  | array a ih =>
    cases b with
    | primitive q => cases hab
    | reference b =>
      -- the middle type is the root class, so that nothing comes after it
      obtain rfl := isMoreSpecific_array_reference.mp hab
      cases c with
      | primitive q => cases hbc
      | array element => cases hbc
      | reference c =>
        obtain ⟨hne, hbc⟩ := isMoreSpecific_references.mp hbc
        rcases hbc with rfl | hbc
        · exact absurd rfl hne
        · exact absurd (hroot.eq_root hbc).symm hne
    | array b =>
      cases c with
      | primitive q => cases hbc
      | reference c =>
        rw [isMoreSpecific_array_reference] at hbc ⊢
        exact hbc
      | array c =>
        rw [isMoreSpecific_arrays] at hab hbc ⊢
        exact ⟨hab.1, hbc.2.1, ih hab.2.2 hbc.2.2⟩

end Stubwright.Stub

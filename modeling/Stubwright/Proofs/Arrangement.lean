import Stubwright.Proofs.Cycles
import Stubwright.Proofs.Lineage
import Stubwright.Stub.Source

/-!
# The order of declarations

    types in one order  ──▶ validate, resolve, render ──▶ the same answers
    types in another    ──▶

All that a stub depends on is looked up by name, and a library is valid for what its types are, not
for where they stand. So two libraries with the same types (`SameTypes`) are valid together
(`SameTypes.validate_iff`) and have the same stubs (`SameTypes.render_eq`), even though checking stops
at the first defect and the walks over supertypes are given the names in another order.
-/

namespace Stubwright

open Java

namespace Library

variable {L L' : Library}

/-- The libraries have the same types, in whatever order. -/
def SameTypes (L L' : Library) : Prop := ∀ d, d ∈ L.types ↔ d ∈ L'.types

namespace SameTypes

theorem symm (h : SameTypes L L') : SameTypes L' L := fun d => (h d).symm

/-! ## Looking up -/

theorem get?_eq (h : SameTypes L L') : L.get? = L'.get? := by
  funext name
  refine Option.ext fun d => ?_
  rw [get?_eq_some_iff, get?_eq_some_iff, h d]

theorem mem_names_iff (h : SameTypes L L') (name : String) : name ∈ L.names ↔ name ∈ L'.names := by
  rw [← declares_iff, ← declares_iff, declares, declares, h.get?_eq]

theorem resolve_eq (h : SameTypes L L') : L.resolve = L'.resolve := by
  funext name
  rw [resolve, resolve, h.get?_eq]

theorem supertypesOf_eq (h : SameTypes L L') : L.supertypesOf = L'.supertypesOf := by
  funext name
  rw [supertypesOf, supertypesOf, h.get?_eq]

theorem isSubtype_eq (h : SameTypes L L') : L.isSubtype = L'.isSubtype := by
  funext sub sup
  rw [Bool.eq_iff_iff, isSubtype_iff, isSubtype_iff, Extends, Extends, h.supertypesOf_eq]

/-! ## Checking -/

theorem cyclic (h : SameTypes L L') (hcyclic : L.Cyclic) : L'.Cyclic := by
  obtain ⟨name, hround⟩ := hcyclic
  refine ⟨name, Relation.TransGen.mono (fun a b hab => ?_) name name hround⟩
  obtain ⟨d, hd, hname, hb, hdeclared⟩ := hab
  exact ⟨d, (h d).mp hd, hname, hb, (h.mem_names_iff b).mp hdeclared⟩

end SameTypes

/-- A library is valid if each type is legal by itself and the graph has no cycle. -/
theorem validate_iff_not_cyclic :
    L.validate = .ok () ↔ (∀ d ∈ L.types, checkType d = .ok ()) ∧ ¬ L.Cyclic := by
  constructor
  · intro h
    exact ⟨(validate_eq_ok_iff.mp h).1, not_cyclic_of_validate h⟩
  · rintro ⟨htypes, hacyclic⟩
    rcases validate_cases L with
      ⟨d, hd, defect, hdefect, -⟩ | ⟨-, ⟨cycle, -, hcircular⟩ | ⟨-, hok⟩⟩
    · rw [htypes d hd] at hdefect
      cases hdefect
    · obtain ⟨way, last, -, hway⟩ := closedWay_of_validate hcircular
      exact absurd hway.cyclic hacyclic
    · exact hok

/-- **Libraries with the same types are valid together.** -/
theorem SameTypes.validate_iff (h : SameTypes L L') :
    L.validate = .ok () ↔ L'.validate = .ok () := by
  rw [validate_iff_not_cyclic, validate_iff_not_cyclic]
  exact and_congr (forall_congr' fun d => imp_congr_left (h d))
    (not_congr ⟨h.cyclic, h.symm.cyclic⟩)

end Library

namespace Stub

variable {L L' : Library}

/-! ## Stubs -/

theorem lineage_congr (h : L.SameTypes L') (T : Descriptor) : lineage L T = lineage L' T := by
  have hknown : known L T = known L' T := by
    funext name
    rw [known, known, h.get?_eq]
  have hsupertypes : knownSupertypes L T = knownSupertypes L' T := by
    funext name
    rw [knownSupertypes, knownSupertypes, hknown]
  have hnodes : ∀ name, name ∈ T.name :: L.names ↔ name ∈ T.name :: L'.names := by
    intro name
    rw [List.mem_cons, List.mem_cons, h.mem_names_iff]
  rw [lineage, lineage, hknown, hsupertypes, Graph.preorder_congr hnodes]

theorem isMoreSpecific_congr (h : L.SameTypes L') (candidate current : JavaType) :
    isMoreSpecific L candidate current = isMoreSpecific L' candidate current := by
  fun_induction isMoreSpecific L candidate current <;> simp_all [isMoreSpecific, h.isSubtype_eq]

theorem absorb_congr (h : L.SameTypes L') : absorb L = absorb L' := by
  have hmeet : ∀ d standing, Standing.meet L d standing = Standing.meet L' d standing := by
    intro d standing
    cases standing with
    | sealed => rfl
    | kept owner m => simp only [Standing.meet, h.isSubtype_eq, isMoreSpecific_congr h]
  funext slots d
  induction slots with
  | nil => rfl
  | cons slot slots ih => rw [absorb, absorb, hmeet, ih]

/-- **Libraries with the same types give the same stubs.** -/
theorem render_congr (h : L.SameTypes L') (indent : Nat) (T : Descriptor) :
    render L indent T = render L' indent T := by
  have hslots : slots L T = slots L' T := by
    rw [slots, slots, offered, offered, lineage_congr h, absorb_congr h]
  rw [render, render, members, members, hslots]

theorem resolveTarget_congr (h : L.SameTypes L') (name : String) :
    resolveTarget L name = resolveTarget L' name := by
  rw [resolveTarget, resolveTarget, h.resolve_eq]

end Stub
end Stubwright

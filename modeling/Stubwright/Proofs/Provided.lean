import Stubwright.Proofs.Legality
import Stubwright.Proofs.Slots

/-!
# Provided members pass the checks

    members of checked types ──offers──▶ settled ──▶ provided members, which pass as well

A provided member can be put together from several declarations: it has the name and the parameters of
the first one, the return type of some, and exceptions that all of them have (`MadeFrom`). What the
checks ask of the types of a member, they ask of each by itself, so that whatever types of a valid
library provide passes again (`admittedMember_of_mem`).
-/

namespace Stubwright.Stub

open Java Library

variable {L : Library} {T : Descriptor} {m : Member} {ms : List Member} {ds : List Declaration}

/-- What is true of the types of all offers is true of the types of what is made from them. -/
theorem MadeFrom.types (h : MadeFrom ds m) {p : JavaType → Prop}
    (hds : ∀ d ∈ ds, ∀ t ∈ d.member.types, p t) : ∀ t ∈ m.types, p t := by
  obtain ⟨⟨d, rest, rfl, hrefines⟩, r, hr, hreturns⟩ := h
  obtain ⟨-, hparameters, hexceptions⟩ := Member.forall_mem_types.mp (hds d List.mem_cons_self)
  obtain ⟨hreturn, -, -⟩ := Member.forall_mem_types.mp (hds r hr)
  refine Member.forall_mem_types.mpr ⟨hreturns ▸ hreturn, ?_, ?_⟩
  · rw [hrefines.same]
    exact hparameters
  · intro e he
    exact hexceptions e (hrefines.exceptions.subset he)

/-- **What is made from members that pass passes as well.** -/
theorem MadeFrom.admitted (h : MadeFrom ds m) (hds : ∀ d ∈ ds, AdmittedMember d.member) :
    AdmittedMember m := by
  have htypes : ∀ t ∈ m.types, Admitted t := h.types fun d hd => (hds d hd).types
  obtain ⟨⟨d, rest, rfl, hrefines⟩, -⟩ := h
  have hd : AdmittedMember d.member := hds d List.mem_cons_self
  have hname : m.name = d.member.name := by rw [hrefines.same]
  have hparameters : m.parameters = d.member.parameters := by rw [hrefines.same]
  constructor
  · exact hname ▸ hd.name
  · exact htypes
  · exact hparameters ▸ hd.notVoid
  · exact hparameters ▸ hd.parameterNames
  · exact hparameters ▸ hd.distinct
  · intro e he
    exact hd.exceptions e (hrefines.exceptions.subset he)

/-! ## The members of a declared target -/

section

variable (hT : T ∈ L.types)
  (hms : ∀ m, m ∈ ms ↔ ∃ owner, settled L (offers L T m.key) = some (.kept owner m)) (hm : m ∈ ms)

include hms hm in
theorem madeFrom_of_mem : MadeFrom (offers L T m.key) m := by
  obtain ⟨owner, hsettled⟩ := (hms m).mp hm
  exact madeFrom_of_settled hsettled

include hT in
/-- Offers are members of types that the library declares. -/
theorem exists_type_of_mem_offers {k : MemberKey} {d : Declaration} (hd : d ∈ offers L T k) :
    ∃ D ∈ L.types, d.member ∈ D.members := by
  obtain ⟨D, hD, -, hdecl⟩ := (mem_offers_iff (noNamesake_of_mem hT)).mp hd
  exact ⟨D, hD.mem_types hT, hdecl.1⟩

include hT hms hm

/-- **Every member that a stub of a valid library provides passes the checks of members.** -/
theorem admittedMember_of_mem (hL : L.validate = .ok ()) : AdmittedMember m := by
  refine (madeFrom_of_mem hms hm).admitted fun d hd => ?_
  obtain ⟨D, hD, hmem⟩ := exists_type_of_mem_offers hT hd
  obtain ⟨-, -, hmembers⟩ := checkType_eq_ok_iff.mp ((validate_eq_ok_iff.mp hL).1 D hD)
  exact checkMember_iff_admitted.mp ((checkMembers_eq_ok_iff.mp hmembers).1 d.member hmem)

/-- Its types can be read if those of all members of the library can. -/
theorem readable_of_mem (hread : ReadableMembers L) : ∀ t ∈ m.types, Readable t := by
  refine (madeFrom_of_mem hms hm).types fun d hd => ?_
  obtain ⟨D, hD, hmem⟩ := exists_type_of_mem_offers hT hd
  exact hread D hD d.member hmem

/-- Then the member is legal. -/
theorem legalMember_of_mem (hread : ReadableMembers L) (hL : L.validate = .ok ()) :
    LegalMember m :=
  (AdmittedMember.legal_iff (readable_of_mem hT hms hm hread)).mp
    (admittedMember_of_mem hT hms hm hL)

end

end Stubwright.Stub

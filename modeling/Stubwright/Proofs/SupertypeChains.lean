import Mathlib.Data.List.Chain
import Stubwright.Proofs.Supertypes

/-!
# Chains of supertypes

    sub ──is extended by──▶ … each name in the list of the type declared under the one before … ──▶ sup

The question whether one type is below another is answered by a search in the supertype graph, which
may have cycles and names that nothing is declared under. Main statement (`isSubtype_iff_chain`): the
answer is `true` exactly if the two names are the same or a chain of supertypes leads up from the first
to the second. Any name may be asked for; one that is not declared ends every chain that comes to it.
-/

namespace Stubwright.Library

variable {L : Library} {sub sup : String} {names : List String}

/-- The names form a chain from `sub` up to `sup`. -/
structure Chain (L : Library) (sub sup : String) (names : List String) : Prop where
  first : names.head? = some sub
  last : names.getLast? = some sup
  /-- Each name is a supertype, as written, of the type declared under the one before. -/
  listed : names.IsChain fun a b => ∃ d ∈ L.types, d.name = a ∧ b ∈ d.supertypes
  declared : ∀ name ∈ names.dropLast, name ∈ L.names

/-- The names that a chain leaves behind are declared, as what is above them says. -/
theorem declared_of_listed (h : names.IsChain L.Extends) :
    ∀ name ∈ names.dropLast, name ∈ L.names := by
  induction names with
  | nil => exact List.forall_mem_nil _
  | cons a names ih =>
    cases names with
    | nil => exact List.forall_mem_nil _
    | cons b names =>
      obtain ⟨hab, hrest⟩ := List.isChain_cons_cons.mp h
      obtain ⟨d, hd, rfl, -⟩ := extends_iff.mp hab
      rw [List.dropLast_cons_cons, List.forall_mem_cons]
      exact ⟨List.mem_map_of_mem hd, ih hrest⟩

/-- A chain leads from its first name to its last. -/
theorem Chain.leads (h : Chain L sub sup names) : Relation.ReflTransGen L.Extends sub sup := by
  obtain ⟨above, rfl⟩ := List.head?_eq_some_iff.mp h.first
  have hlisted : (sub :: above).IsChain L.Extends :=
    h.listed.imp fun _ _ hab => extends_iff.mpr hab
  have hlast : (sub :: above).getLast (List.cons_ne_nil _ _) = sup :=
    (List.getLast_eq_iff_getLast?_eq_some _).mpr h.last
  exact List.relationReflTransGen_of_exists_isChain_cons above hlisted hlast

/-- Where supertypes lead, a chain leads. -/
theorem exists_chain_of_leads (h : Relation.ReflTransGen L.Extends sub sup) :
    ∃ names, Chain L sub sup names := by
  obtain ⟨above, hlisted, hlast⟩ := List.exists_isChain_cons_of_relationReflTransGen h
  refine ⟨sub :: above, rfl, ?_, ?_, declared_of_listed hlisted⟩
  · exact (List.getLast_eq_iff_getLast?_eq_some _).mp hlast
  · exact hlisted.imp fun _ _ hab => extends_iff.mp hab

/-- **Being a subtype is being at the bottom of a chain.** In every library, one whose supertypes go
round in circles included, and for all names, declared or not, the search for `sup` from `sub` ends,
and finds it if and only if the two are the same or a chain leads up from `sub` to `sup`. -/
theorem isSubtype_iff_chain (L : Library) (sub sup : String) :
    L.isSubtype sub sup = true ↔ sup = sub ∨ ∃ names, Chain L sub sup names := by
  rw [isSubtype_iff]
  constructor
  · intro hleads
    exact Or.inr (exists_chain_of_leads hleads)
  · rintro (rfl | ⟨names, hchain⟩)
    · exact .refl
    · exact hchain.leads

example : (⟨[{ name := "a.Left", supertypes := ["a.Right"] },
    { name := "a.Right", supertypes := ["a.Left", "java.lang.Object"] }], by decide⟩ :
    Library).isSubtype "a.Left" "java.lang.Object" = true := by decide +kernel

end Stubwright.Library

import Stubwright.Proofs.Slots

/-!
# Every key is provided once

`members` walks the types that a target reaches and takes in their declarations one by one. Main
statement: whatever the supertype graph, cycles included, the result has each key once, and which
keys it has is a matter of reachability — every key that a reached type declares, other than by a
static member, is there unless some reached type declares it as final, and no key is there that no
reached type leaves open (`members_cover`).
-/

namespace Stubwright.Stub

open Java

variable {L : Library} {T : Descriptor}

/-- The members answer for the keys that the types reached from the target declare. -/
structure Covers (L : Library) (T : Descriptor) (ms : List Member) : Prop where
  /-- No two members have the same key. -/
  nodup : (ms.map Member.key).Nodup
  /-- A declared key is there, and once only, or some reached type declares it as final. -/
  provided : ∀ D k d, L.Reaches T D → Declares D k d →
    (ms.map Member.key).count k = 1 ∨
      ∃ E e, L.Reaches T E ∧ Declares E k e ∧ e.isFinal = true
  /-- Some reached type declares the member's key and leaves it open. -/
  declared : ∀ m ∈ ms, ∃ D d, L.Reaches T D ∧ Declares D m.key d ∧ d.isFinal = false

/-- **The members of a stub cover exactly the keys that are there to be implemented**, each once. -/
theorem members_cover (hT : T ∈ L.types ∨ T.name ∉ L.names) (hcheck : checkTarget T = .ok ()) :
    ∃ ms, members L T = .ok ms ∧ Covers L T ms := by
  have hname : NoNamesake L T := hT.elim noNamesake_of_mem noNamesake_of_not_mem
  obtain ⟨ms, hmembers, hnodup, hms⟩ := members_spec hcheck
  refine ⟨ms, hmembers, hnodup, ?_, ?_⟩
  · -- the first offer of the key decides, and there is one
    intro D k m hD hm
    have hoffer : (⟨D.name, m⟩ : Declaration) ∈ offers L T k :=
      mem_offers_of_declares hname hD hm
    obtain ⟨d, rest, hoffers⟩ := List.exists_cons_of_ne_nil (List.ne_nil_of_mem hoffer)
    cases hfinal : d.member.isFinal with
    | true =>
      have hd : d ∈ offers L T k := hoffers ▸ List.mem_cons_self
      obtain ⟨E, hE, -, hdecl⟩ := (mem_offers_iff hname).mp hd
      exact Or.inr ⟨E, d.member, hE, hdecl, hfinal⟩
    | false =>
      obtain ⟨n, hn, rfl⟩ := (exists_member_iff hms).mpr ⟨d, rest, hoffers, hfinal⟩
      exact Or.inl (List.count_eq_one_of_mem hnodup (List.mem_map_of_mem hn))
  · intro m hm
    obtain ⟨d, rest, hoffers, hfinal⟩ := (exists_member_iff hms).mp ⟨m, hm, rfl⟩
    have hd : d ∈ offers L T m.key := hoffers ▸ List.mem_cons_self
    obtain ⟨D, hD, -, hdecl⟩ := (mem_offers_iff hname).mp hd
    exact ⟨D, d.member, hD, hdecl, hfinal⟩

/-! ### Two types above each other -/

/-- A type that leads to itself over a type which seals one of the keys. -/
def ringLeft : Descriptor where
  name := "a.Left"
  supertypes := ["a.Right", "java.io.Serializable"]
  members := [{ name := "run", returns := .primitive .void }]

def ringRight : Descriptor where
  name := "a.Right"
  supertypes := ["a.Left"]
  members := [
    { name := "run", returns := .primitive .int },
    { name := "id", returns := .primitive .long, isFinal := true },
    { name := "size", returns := .primitive .int }]

def ring : Library := ⟨[ringLeft, ringRight], by decide⟩

theorem members_cover_ring :
    ringLeft ∈ ring.types ∧ checkTarget ringLeft = .ok () ∧
      ∃ ms, members ring ringLeft = .ok ms ∧ Covers ring ringLeft ms := by
  have hmem : ringLeft ∈ ring.types := List.mem_cons_self
  have hcheck : checkTarget ringLeft = .ok () := by decide
  exact ⟨hmem, hcheck, members_cover (Or.inl hmem) hcheck⟩

end Stubwright.Stub

import Stubwright.Proofs.OnePass

/-!
# Members in the order in which they are met

    types, depth first ──declaredMembers──▶ list of members ──first of each key──▶ members of the stub

What a stub provides can be read off one list: the members that the types met from the target declare,
one type after the other. Main statement (`members_firstMet`): the keys of the stub are the keys of
that list in the order of their first occurrence, without those that occur first as final, and each
member is the first occurrence of its key but for its return type and for exceptions it has lost.
-/

namespace Stubwright.Stub

open Java Library

variable {L : Library} {T : Descriptor} {k : MemberKey}

/-! ## The list of declared members -/

/-- What types declare, one after the other. Static members are left out. -/
def declaredMembers (types : List Descriptor) : List Member :=
  types.flatMap fun D => D.members.filter (!·.isStatic)

/-- The first member of this key. -/
def firstOf? (ms : List Member) (k : MemberKey) : Option Member := ms.find? (·.key = k)

/-- Whether the first member of a key can be overridden. -/
def isOpen (ms : List Member) (k : MemberKey) : Bool := (firstOf? ms k).any (!·.isFinal)

/-- The keys in the order of their first occurrence, without those that occur first as final. -/
def openKeys (ms : List Member) : List MemberKey := (ms.map Member.key).eraseDups.filter (isOpen ms)

theorem declaredMembers_lineage :
    declaredMembers (lineage L T) = (offered L T).map (·.member) := by
  unfold declaredMembers offered declarations
  simp [List.map_flatMap, Function.comp_def]

/-- The first member of a key is the one of its first offer. -/
theorem firstOf?_lineage :
    firstOf? (declaredMembers (lineage L T)) k = (offers L T k).head?.map (·.member) := by
  rw [firstOf?, declaredMembers_lineage, List.find?_map, offers, List.head?_filter]
  rfl

/-! ## Slots in that order -/

/-- Slots are taken in the order in which keys occur first. -/
theorem keys_slots : (slots L T).map (·.key) = ((offered L T).map (·.member.key)).eraseDups := by
  unfold slots
  induction offered L T using List.reverseRecOn with
  | nil => rfl
  | append_singleton ds d ih =>
    rw [List.foldl_append, List.foldl_cons, List.foldl_nil, keys_absorb, ih, List.map_append,
      List.eraseDups_append, List.map_cons, List.map_nil, List.removeAll]
    by_cases hd : d.member.key ∈ ds.map (·.member.key)
    · rw [if_pos (List.mem_eraseDups.mpr hd), List.filter_cons_of_neg (by simpa using hd)]
      exact (List.append_nil _).symm
    · rw [if_neg (fun h => hd (List.mem_eraseDups.mp h)),
        List.filter_cons_of_pos (by simpa using hd)]
      rfl

/-- A slot provides its key if that was first met as open. -/
theorem member?_key {slot : Slot} (h : slot ∈ slots L T) :
    slot.member?.map Member.key
      = if isOpen (declaredMembers (lineage L T)) slot.key then some slot.key else none := by
  have hsettled := standing?_of_mem h
  rw [standing?_slots] at hsettled
  have hopen : isOpen (declaredMembers (lineage L T)) slot.key
      = (offers L T slot.key).head?.any (!·.member.isFinal) := by
    rw [isOpen, firstOf?_lineage, Option.any_map]
  rw [hopen]
  cases hoffers : offers L T slot.key with
  | nil =>
    rw [hoffers] at hsettled
    cases hsettled
  | cons d rest =>
    rw [hoffers] at hsettled
    cases hfinal : d.member.isFinal with
    | true =>
      rw [settled_sealed hfinal, Option.some.injEq] at hsettled
      simp [Slot.member?, ← hsettled, hfinal]
    | false =>
      obtain ⟨owner, m, hkept⟩ := settled_kept (L := L) hfinal rest
      rw [hkept, Option.some.injEq] at hsettled
      have hm : slot.member? = some m := by rw [Slot.member?, ← hsettled]
      simp [hm, key_of_member? h hm, hfinal]

/-! ## The members of a stub -/

/-- The members that slots provide have the keys of those slots that were first met as open. -/
theorem keys_provided :
    (provided (slots L T)).map Member.key = openKeys (declaredMembers (lineage L T)) := by
  have hkeys : (declaredMembers (lineage L T)).map Member.key
      = (offered L T).map (·.member.key) := by
    rw [declaredMembers_lineage, List.map_map]
    rfl
  calc (provided (slots L T)).map Member.key
      = (slots L T).filterMap fun slot => slot.member?.map Member.key := List.map_filterMap
    _ = (slots L T).filterMap fun slot =>
          if isOpen (declaredMembers (lineage L T)) slot.key then some slot.key else none :=
        List.filterMap_congr fun _ hslot => member?_key hslot
    _ = ((slots L T).map (·.key)).filter (isOpen (declaredMembers (lineage L T))) := by
        rw [← List.filterMap_eq_filter, List.filterMap_map]
        rfl
    _ = openKeys (declaredMembers (lineage L T)) := by rw [openKeys, keys_slots, hkeys]

/-- A member of a stub refines the first one of its key. -/
theorem refines_first {m : Member} {owner : String}
    (h : settled L (offers L T m.key) = some (.kept owner m)) :
    ∃ first, firstOf? (declaredMembers (lineage L T)) m.key = some first ∧ Refines m first := by
  obtain ⟨⟨d, rest, hoffers, hrefines⟩, -⟩ := madeFrom_of_settled h
  refine ⟨d.member, ?_, hrefines⟩
  rw [firstOf?_lineage, hoffers]
  rfl

/-- **The members of a stub come in the order in which their keys are met.** If a target can be
implemented, then one list of types is met from it depth first, and the members of its stub, also when
they are collected in one pass, have the keys that these types declare, in the order of their first
occurrence and without those that occur first as final. Each of them is the first member of its key
but for its return type and for exceptions it has lost. -/
theorem members_firstMet (hcheck : checkTarget T = .ok ()) :
    ∃ types ms, (∀ types', DepthFirst L T types' ↔ types' = types) ∧
      members L T = .ok ms ∧ collect L T = ms ∧
      ms.map Member.key = openKeys (declaredMembers types) ∧
      ∀ m ∈ ms, ∃ first, firstOf? (declaredMembers types) m.key = some first ∧ Refines m first := by
  obtain ⟨ms, hmembers, -, hms⟩ := members_spec (L := L) hcheck
  have hcollect : collect L T = ms := by
    rw [members_eq_collect hcheck] at hmembers
    exact Except.ok.inj hmembers
  refine ⟨lineage L T, ms, fun _ => depthFirst_iff, hmembers, hcollect, ?_, fun m hm => ?_⟩
  · rw [← hcollect, collect_eq_slots]
    exact keys_provided
  · obtain ⟨owner, hsettled⟩ := (hms m).mp hm
    exact refines_first hsettled

/-! ### Types that inherit from each other -/

/-- Seals `close`. Of what it declares otherwise, `of` is static and `read` is narrowed by a type
above it. -/
def circularFirst : Descriptor where
  name := "a.First"
  supertypes := ["a.Second", "a.Gone", "a.Third"]
  members := [
    { name := "close", returns := .primitive .void, isFinal := true },
    { name := "of", returns := .reference "a.First", isStatic := true },
    { name := "read"
      returns := .reference "java.lang.Object"
      exceptions := [.reference "java.io.IOException", .reference "java.lang.Error"] }]

def circular : Library := ⟨[
  { name := "a.Third"
    members := [{
      name := "read"
      returns := .reference "java.lang.String"
      exceptions := [.reference "java.io.IOException"] }] },
  { name := "a.Second"
    supertypes := ["a.First"]
    members := [
      { name := "size", returns := .primitive .int },
      { name := "close", returns := .primitive .void }] },
  circularFirst], by decide⟩

theorem members_firstMet_circular :
    checkTarget circularFirst = .ok () ∧
      ∃ types ms, (∀ types', DepthFirst circular circularFirst types' ↔ types' = types) ∧
        members circular circularFirst = .ok ms ∧ collect circular circularFirst = ms ∧
        ms.map Member.key = openKeys (declaredMembers types) ∧
        ∀ m ∈ ms, ∃ first, firstOf? (declaredMembers types) m.key = some first ∧
          Refines m first := by
  have hcheck : checkTarget circularFirst = .ok () := by decide
  exact ⟨hcheck, members_firstMet hcheck⟩

end Stubwright.Stub

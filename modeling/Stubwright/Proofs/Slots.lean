import Mathlib.Data.List.Induction
import Stubwright.Proofs.Lineage

/-!
# One key at a time

    offered ──absorb──▶ slots ──standing of k──▶ what is known of k
       └──offers of k──▶ the same, by itself ────────▲

`absorb` changes one slot, so that what becomes of a key depends on the offers of that key alone
(`standing?_slots`): the first one is taken as it is and each later one is met. `members_spec` puts
this in terms of the members: a member is provided exactly if its key stands as kept with it.

What the first offer decides is never undone: a final one seals its key (`settled_sealed`), any other
keeps it (`settled_kept`).
-/

namespace Stubwright.Stub

open Java

variable {L : Library} {T : Descriptor}

/-! ## The slots as a map -/

/-- What the slots say of a key. -/
def standing? (slots : List Slot) (k : MemberKey) : Option Standing :=
  (slots.find? (·.key = k)).map (·.standing)

/-- What a declaration makes of its key: the first one is taken, a later one is met. -/
def take (L : Library) (d : Declaration) : Option Standing → Standing
  | none => (Slot.first d).standing
  | some standing => standing.meet L d

theorem standing?_cons (slot : Slot) (slots : List Slot) (k : MemberKey) :
    standing? (slot :: slots) k
      = if slot.key = k then some slot.standing else standing? slots k := by
  unfold standing?
  by_cases hk : slot.key = k
  · rw [List.find?_cons_of_pos (by simpa using hk), if_pos hk]
    rfl
  · rw [List.find?_cons_of_neg (by simpa using hk), if_neg hk]

/-- A declaration changes what is said of its own key and of no other. -/
theorem standing?_absorb (slots : List Slot) (d : Declaration) (k : MemberKey) :
    standing? (absorb L slots d) k
      = if d.member.key = k then some (take L d (standing? slots k)) else standing? slots k := by
  induction slots with
  | nil =>
    rw [absorb, standing?_cons]
    rfl
  | cons slot slots ih =>
    rw [absorb]
    by_cases hslot : slot.key = d.member.key
    · rw [if_pos hslot, standing?_cons, standing?_cons, ← hslot]
      by_cases hk : slot.key = k
      · rw [if_pos hk, if_pos hk, if_pos hk]
        rfl
      · rw [if_neg hk, if_neg hk, if_neg hk]
    · -- a slot of another key is passed over, so it is in the way of neither look-up
      rw [if_neg hslot, standing?_cons, standing?_cons, ih]
      by_cases hk : slot.key = k
      · rw [if_pos hk, if_pos hk, if_neg (fun hd => hslot (hk.trans hd.symm))]
      · rw [if_neg hk, if_neg hk]

theorem keys_absorb (slots : List Slot) (d : Declaration) :
    (absorb L slots d).map (·.key)
      = if d.member.key ∈ slots.map (·.key) then slots.map (·.key)
        else slots.map (·.key) ++ [d.member.key] := by
  induction slots with
  | nil => rfl
  | cons slot slots ih =>
    rw [absorb]
    by_cases hslot : slot.key = d.member.key
    · simp [hslot]
    · have hne : d.member.key ≠ slot.key := fun he => hslot he.symm
      rw [if_neg hslot, List.map_cons, List.map_cons, ih]
      by_cases hmem : d.member.key ∈ slots.map (·.key)
      · rw [if_pos hmem, if_pos (List.mem_cons_of_mem _ hmem)]
      · rw [if_neg hmem, if_neg fun h => hmem (List.mem_of_ne_of_mem hne h), List.cons_append]

theorem nodup_keys_absorb {slots : List Slot} (h : (slots.map (·.key)).Nodup) (d : Declaration) :
    ((absorb L slots d).map (·.key)).Nodup := by
  rw [keys_absorb]
  split
  · exact h
  · next hnew => exact List.nodup_append.mpr ⟨h, List.nodup_singleton _, by simpa using hnew⟩

/-- No two slots have the same key. -/
theorem nodup_keys_slots : ((slots L T).map (·.key)).Nodup := by
  unfold slots
  generalize hslots : ([] : List Slot) = taken
  have htaken : (taken.map (·.key)).Nodup := hslots ▸ List.nodup_nil
  clear hslots
  induction offered L T generalizing taken with
  | nil => exact htaken
  | cons d ds ih => exact ih _ (nodup_keys_absorb htaken d)

/-! ## Meeting a declaration -/

/-- The owner is below the type of the declaration: nothing changes. -/
theorem meet_below {owner : String} {m : Member} {d : Declaration}
    (hsub : L.isSubtype owner d.owner = true) :
    (Standing.kept owner m).meet L d = .kept owner m :=
  if_pos hsub

/-- The declaration returns something more specific: it gives its return type and becomes the owner,
and the exceptions are shared. -/
theorem meet_narrow {owner : String} {m : Member} {d : Declaration}
    (hsub : ¬ L.isSubtype owner d.owner = true)
    (hmore : isMoreSpecific L d.member.returns m.returns = true) :
    (Standing.kept owner m).meet L d
      = .kept d.owner { m with
          exceptions := m.exceptions.filter d.member.exceptions.contains
          returns := d.member.returns } :=
  (if_neg hsub).trans (if_pos hmore)

/-- Otherwise the exceptions are shared and nothing else changes. -/
theorem meet_share {owner : String} {m : Member} {d : Declaration}
    (hsub : ¬ L.isSubtype owner d.owner = true)
    (hmore : ¬ isMoreSpecific L d.member.returns m.returns = true) :
    (Standing.kept owner m).meet L d
      = .kept owner { m with
          exceptions := m.exceptions.filter d.member.exceptions.contains } :=
  (if_neg hsub).trans (if_neg hmore)

/-- All that meeting a declaration can do to a kept key. -/
theorem meet_cases (owner : String) (m : Member) (d : Declaration) :
    (L.isSubtype owner d.owner = true ∧ (Standing.kept owner m).meet L d = .kept owner m) ∨
    (L.isSubtype owner d.owner = false ∧ isMoreSpecific L d.member.returns m.returns = true ∧
      (Standing.kept owner m).meet L d
        = .kept d.owner { m with
            exceptions := m.exceptions.filter d.member.exceptions.contains
            returns := d.member.returns }) ∨
    (L.isSubtype owner d.owner = false ∧ isMoreSpecific L d.member.returns m.returns = false ∧
      (Standing.kept owner m).meet L d
        = .kept owner { m with
            exceptions := m.exceptions.filter d.member.exceptions.contains }) := by
  by_cases hsub : L.isSubtype owner d.owner = true
  · exact Or.inl ⟨hsub, meet_below hsub⟩
  · have hsub' : L.isSubtype owner d.owner = false := Bool.eq_false_iff.mpr hsub
    by_cases hmore : isMoreSpecific L d.member.returns m.returns = true
    · exact Or.inr (Or.inl ⟨hsub', hmore, meet_narrow hsub hmore⟩)
    · exact Or.inr (Or.inr ⟨hsub', Bool.eq_false_iff.mpr hmore, meet_share hsub hmore⟩)

/-! ## What becomes of a key -/

/-- What is known of a key after its offers, in order. -/
def settled (L : Library) (ds : List Declaration) : Option Standing :=
  ds.foldl (fun standing d => some (take L d standing)) none

theorem settled_append (ds : List Declaration) (d : Declaration) :
    settled L (ds ++ [d]) = some (take L d (settled L ds)) := by
  rw [settled, List.foldl_append]
  rfl

theorem standing?_foldl (ds : List Declaration) (slots : List Slot) (k : MemberKey) :
    standing? (ds.foldl (absorb L) slots) k
      = (ds.filter (·.member.key = k)).foldl (fun standing d => some (take L d standing))
          (standing? slots k) := by
  induction ds generalizing slots with
  | nil => rfl
  | cons d ds ih =>
    rw [List.foldl_cons, ih, standing?_absorb]
    by_cases hk : d.member.key = k
    · rw [if_pos hk, List.filter_cons_of_pos (by simpa using hk), List.foldl_cons]
    · rw [if_neg hk, List.filter_cons_of_neg (by simpa using hk)]

/-- **What becomes of a key depends on its offers alone.** -/
theorem standing?_slots (k : MemberKey) :
    standing? (slots L T) k = settled L (offers L T k) :=
  standing?_foldl _ _ _

/-! ### The first offer decides -/

/-- A sealed key stays sealed. -/
theorem settled_sealed {d : Declaration} (hd : d.member.isFinal = true) (ds : List Declaration) :
    settled L (d :: ds) = some .sealed := by
  induction ds using List.reverseRecOn with
  | nil => simp [settled, take, Slot.first, hd]
  | append_singleton ds e ih =>
    rw [← List.cons_append, settled_append, ih]
    rfl

/-- A kept key stays kept. -/
theorem settled_kept {d : Declaration} (hd : d.member.isFinal = false) (ds : List Declaration) :
    ∃ owner m, settled L (d :: ds) = some (.kept owner m) := by
  induction ds using List.reverseRecOn with
  | nil => exact ⟨d.owner, d.member, by simp [settled, take, Slot.first, hd]⟩
  | append_singleton ds e ih =>
    obtain ⟨owner, m, ih⟩ := ih
    rw [← List.cons_append, settled_append, ih, take]
    rcases meet_cases owner m e with ⟨-, hmeet⟩ | ⟨-, -, hmeet⟩ | ⟨-, -, hmeet⟩
    all_goals exact ⟨_, _, congrArg some hmeet⟩

/-- A key is kept exactly if it has offers and the first of them is not final. -/
theorem exists_kept_iff {ds : List Declaration} :
    (∃ owner m, settled L ds = some (.kept owner m)) ↔
      ∃ d rest, ds = d :: rest ∧ d.member.isFinal = false := by
  constructor
  · rintro ⟨owner, m, h⟩
    cases ds with
    | nil => cases h
    | cons d rest =>
      refine ⟨d, rest, rfl, Bool.eq_false_iff.mpr fun hd => ?_⟩
      rw [settled_sealed hd] at h
      cases h
  · rintro ⟨d, rest, rfl, hd⟩
    exact settled_kept hd rest

/-! ### Induction over the offers of a kept key -/

theorem settled_eq_none {ds : List Declaration} (h : settled L ds = none) : ds = [] := by
  induction ds using List.reverseRecOn with
  | nil => rfl
  | append_singleton ds d _ =>
    rw [settled_append] at h
    cases h

/-- What holds of the first offer, and of what each meeting leaves, holds of whatever is kept in the
end together with the offers it comes from. -/
theorem kept_induction {motive : List Declaration → String → Member → Prop}
    (first : ∀ d, motive [d] d.owner d.member)
    (below : ∀ ds owner m d, motive ds owner m → L.isSubtype owner d.owner = true →
      motive (ds ++ [d]) owner m)
    (narrow : ∀ ds owner m d, motive ds owner m →
      isMoreSpecific L d.member.returns m.returns = true →
      motive (ds ++ [d]) d.owner { m with
        exceptions := m.exceptions.filter d.member.exceptions.contains
        returns := d.member.returns })
    (share : ∀ ds owner m d, motive ds owner m →
      isMoreSpecific L d.member.returns m.returns = false →
      motive (ds ++ [d]) owner { m with
        exceptions := m.exceptions.filter d.member.exceptions.contains })
    {ds : List Declaration} {owner : String} {m : Member}
    (h : settled L ds = some (.kept owner m)) : motive ds owner m := by
  induction ds using List.reverseRecOn generalizing owner m with
  | nil => cases h
  | append_singleton ds d ih =>
    rw [settled_append, Option.some.injEq] at h
    cases hstanding : settled L ds with
    | none =>
      -- nothing is known of the key yet: this is its first offer
      obtain rfl := settled_eq_none hstanding
      rw [hstanding, take, Slot.first] at h
      dsimp only at h
      split at h
      · cases h
      · cases h
        exact first d
    | some standing =>
      rw [hstanding, take] at h
      cases standing with
      | sealed => cases h
      | kept owner' m' =>
        have hbefore : motive ds owner' m' := ih hstanding
        rcases meet_cases owner' m' d with ⟨hsub, hmeet⟩ | ⟨-, hmore, hmeet⟩ | ⟨-, hmore, hmeet⟩
        · rw [hmeet] at h
          cases h
          exact below ds _ _ d hbefore hsub
        · rw [hmeet] at h
          cases h
          exact narrow ds _ _ d hbefore hmore
        · rw [hmeet] at h
          cases h
          exact share ds _ _ d hbefore hmore

/-- The member is the other one but for its return type, and for exceptions it has lost. -/
structure Refines (m first : Member) : Prop where
  same : m = { first with returns := m.returns, exceptions := m.exceptions }
  exceptions : m.exceptions.Sublist first.exceptions

theorem Refines.refl (m : Member) : Refines m m := ⟨rfl, .refl _⟩

theorem Refines.key_eq {m first : Member} (h : Refines m first) : m.key = first.key := by
  rw [h.same]
  rfl

/-- It stays so with another return type and fewer exceptions. -/
theorem Refines.change {m first : Member} (h : Refines m first) (t : JavaType)
    {es : List JavaType} (hes : es.Sublist m.exceptions) :
    Refines { m with returns := t, exceptions := es } first :=
  ⟨by rw [h.same], hes.trans h.exceptions⟩

/-- The member refines the first offer and has the return type of some offer. -/
def MadeFrom (ds : List Declaration) (m : Member) : Prop :=
  (∃ d rest, ds = d :: rest ∧ Refines m d.member) ∧ ∃ r ∈ ds, r.member.returns = m.returns

theorem MadeFrom.concat {ds : List Declaration} {m : Member} (h : MadeFrom ds m) (e : Declaration)
    {t : JavaType} (ht : t = m.returns ∨ t = e.member.returns) {es : List JavaType}
    (hes : es.Sublist m.exceptions) :
    MadeFrom (ds ++ [e]) { m with returns := t, exceptions := es } := by
  obtain ⟨⟨d, rest, rfl, hrefines⟩, r, hr, hreturns⟩ := h
  refine ⟨⟨d, rest ++ [e], rfl, hrefines.change t hes⟩, ?_⟩
  rcases ht with rfl | rfl
  · exact ⟨r, List.mem_append_left _ hr, hreturns⟩
  · exact ⟨e, List.mem_append_right _ List.mem_cons_self, rfl⟩

/-- **What is kept of a key is made from its first offer.** -/
theorem madeFrom_of_settled {ds : List Declaration} {owner : String} {m : Member}
    (h : settled L ds = some (.kept owner m)) : MadeFrom ds m := by
  refine kept_induction (motive := fun ds _ m => MadeFrom ds m) ?_ ?_ ?_ ?_ h
  · intro d
    exact ⟨⟨d, [], rfl, .refl _⟩, d, List.mem_cons_self, rfl⟩
  · intro ds owner m e ih _
    exact ih.concat e (.inl rfl) (.refl _)
  · intro ds owner m e ih _
    exact ih.concat e (.inr rfl) List.filter_sublist
  · intro ds owner m e ih _
    exact ih.concat e (.inl rfl) List.filter_sublist

/-- A kept member has the key of its offers. -/
theorem key_of_settled {k : MemberKey} {ds : List Declaration} {owner : String} {m : Member}
    (hds : ∀ d ∈ ds, d.member.key = k) (h : settled L ds = some (.kept owner m)) : m.key = k := by
  obtain ⟨⟨d, rest, rfl, hrefines⟩, -⟩ := madeFrom_of_settled h
  rw [hrefines.key_eq]
  exact hds d List.mem_cons_self

/-! ## The members of a stub -/

theorem standing?_of_mem {slot : Slot} (h : slot ∈ slots L T) :
    standing? (slots L T) slot.key = some slot.standing := by
  have hfind : (slots L T).find? (·.key = slot.key) = some slot := by
    cases hfound : (slots L T).find? (·.key = slot.key) with
    | none => exact absurd (List.find?_eq_none.mp hfound slot h) (by simp)
    | some other =>
      have hkey : other.key = slot.key := by simpa using List.find?_some hfound
      rw [List.inj_on_of_nodup_map nodup_keys_slots (List.mem_of_find?_eq_some hfound) h hkey]
  rw [standing?, hfind]
  rfl

/-- A kept slot holds a member of its own key. -/
theorem key_of_member? {slot : Slot} {m : Member} (h : slot ∈ slots L T)
    (hm : slot.member? = some m) : m.key = slot.key := by
  unfold Slot.member? at hm
  split at hm
  · cases hm
  · next owner member hstanding =>
    cases hm
    have hsettled := standing?_of_mem h
    rw [standing?_slots, hstanding] at hsettled
    exact key_of_settled key_of_mem_offers hsettled

/-- **What a stub provides**, if its target can be implemented: no key twice, and exactly the members
that are kept once all offers of their key are settled. -/
theorem members_spec (hT : checkTarget T = .ok ()) :
    ∃ ms, members L T = .ok ms ∧ (ms.map Member.key).Nodup ∧
      ∀ m, m ∈ ms ↔ ∃ owner, settled L (offers L T m.key) = some (.kept owner m) := by
  refine ⟨(slots L T).filterMap Slot.member?, by rw [members, hT]; rfl, ?_, fun m => ?_⟩
  · have hsub : (((slots L T).filterMap Slot.member?).map Member.key).Sublist
        ((slots L T).map (·.key)) := map_filterMap_sublist fun _ h _ => key_of_member? h
    exact hsub.nodup nodup_keys_slots
  · rw [List.mem_filterMap, ← standing?_slots]
    constructor
    · rintro ⟨slot, hslot, hm⟩
      rw [key_of_member? hslot hm, standing?_of_mem hslot]
      unfold Slot.member? at hm
      split at hm
      · cases hm
      · next owner member hstanding =>
        cases hm
        exact ⟨owner, congrArg some hstanding⟩
    · rintro ⟨owner, h⟩
      obtain ⟨slot, hslot, hstanding⟩ := Option.map_eq_some_iff.mp h
      refine ⟨slot, List.mem_of_find?_eq_some hslot, ?_⟩
      rw [Slot.member?, hstanding]

/-- A stub provides a key exactly if its first offer is not final. -/
theorem exists_member_iff {ms : List Member}
    (hms : ∀ m, m ∈ ms ↔ ∃ owner, settled L (offers L T m.key) = some (.kept owner m))
    {k : MemberKey} :
    (∃ m ∈ ms, m.key = k) ↔ ∃ d rest, offers L T k = d :: rest ∧ d.member.isFinal = false := by
  rw [← exists_kept_iff]
  constructor
  · rintro ⟨m, hm, rfl⟩
    obtain ⟨owner, h⟩ := (hms m).mp hm
    exact ⟨owner, m, h⟩
  · rintro ⟨owner, m, h⟩
    obtain rfl := key_of_settled key_of_mem_offers h
    exact ⟨m, (hms m).mpr ⟨owner, h⟩, rfl⟩

end Stubwright.Stub

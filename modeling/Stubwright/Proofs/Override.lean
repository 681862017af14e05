import Stubwright.Proofs.ReturnTypes
import Stubwright.Proofs.Slots

/-!
# A provided member can override what it has to

When several types that a target reaches declare a key, one member is provided for all of them. Main
statement (`members_override`): in a valid library whose root class lists no supertypes, it fits
every declaration that no other one is below — it throws nothing that such a declaration does not
allow, and no such declaration returns something more specific.

Offers are met one by one, and a declaration may be skipped because the owner of the moment is below
its type. What survives every step (`Merged`) is that each declaration met so far is either respected
or has one below it that was met too. That narrowing respects the return types compared before takes
the order of return types; that a skipped declaration is not just the owner itself takes that no type
declares a key twice.
-/

namespace Stubwright.Stub

open Java

variable {L : Library} {T : Descriptor}

/-! ## What the merging keeps up -/

/-- A member respects a declaration: it throws nothing else, and returns nothing less specific. -/
def Respects (L : Library) (m d : Member) : Prop :=
  (∀ e ∈ m.exceptions, e ∈ d.exceptions) ∧ isMoreSpecific L d.returns m.returns = false

/-- What is kept after some offers: owner and return type come from one of them, and each offer is
respected or has another one below it. -/
structure Merged (L : Library) (ds : List Declaration) (owner : String) (m : Member) : Prop where
  held : ∃ d ∈ ds, d.owner = owner ∧ d.member.returns = m.returns
  heeds : ∀ d ∈ ds, (∃ e ∈ ds, e.owner ≠ d.owner ∧ L.isSubtype e.owner d.owner = true) ∨
    Respects L m d.member

theorem Merged.first (d : Declaration) : Merged L [d] d.owner d.member where
  held := ⟨d, List.mem_cons_self, rfl, rfl⟩
  heeds := by
    intro e he
    rw [List.mem_singleton.mp he]
    right
    exact ⟨fun _ h => h, isMoreSpecific_irrefl _⟩

/-- One more offer, one more step: the earlier offers stay as they are if the member they are
compared with still respects those it respected. -/
theorem Merged.heeds_append {ds : List Declaration} {owner : String} {m m' : Member}
    {d : Declaration} (h : Merged L ds owner m)
    (hearlier : ∀ e : Declaration, Respects L m e.member → Respects L m' e.member)
    (hd : (∃ e ∈ ds ++ [d], e.owner ≠ d.owner ∧ L.isSubtype e.owner d.owner = true) ∨
      Respects L m' d.member) :
    ∀ e ∈ ds ++ [d],
      (∃ c ∈ ds ++ [d], c.owner ≠ e.owner ∧ L.isSubtype c.owner e.owner = true) ∨
        Respects L m' e.member := by
  intro e he
  rcases List.mem_append.mp he with he | he
  · rcases h.heeds e he with ⟨c, hc, hbelow⟩ | hrespects
    · exact Or.inl ⟨c, List.mem_append_left _ hc, hbelow⟩
    · exact Or.inr (hearlier e hrespects)
  · rwa [List.mem_singleton.mp he]

/-- The offer is skipped: the owner's own offer is below it. -/
theorem Merged.below {ds : List Declaration} {owner : String} {m : Member} {d : Declaration}
    (h : Merged L ds owner m) (hnew : ∀ e ∈ ds, e.owner ≠ d.owner)
    (hsub : L.isSubtype owner d.owner = true) : Merged L (ds ++ [d]) owner m := by
  obtain ⟨c, hc, rfl, hreturns⟩ := h.held
  have hc' : c ∈ ds ++ [d] := List.mem_append_left _ hc
  constructor
  · exact ⟨c, hc', rfl, hreturns⟩
  · apply h.heeds_append
    · intro e he
      exact he
    · left
      exact ⟨c, hc', hnew c hc, hsub⟩

/-- The offer narrows the return type: what was not below the old one is not below the new one. -/
theorem Merged.narrow (hL : L.validate = .ok ()) (hroot : RootOnTop L) {ds : List Declaration}
    {owner : String} {m : Member} {d : Declaration} (h : Merged L ds owner m)
    (hmore : isMoreSpecific L d.member.returns m.returns = true) :
    Merged L (ds ++ [d]) d.owner { m with
      exceptions := m.exceptions.filter d.member.exceptions.contains
      returns := d.member.returns } := by
  constructor
  · exact ⟨d, List.mem_append_right _ List.mem_cons_self, rfl, rfl⟩
  · apply h.heeds_append
    · rintro e ⟨hexceptions, hreturns⟩
      constructor
      · intro x hx
        exact hexceptions x (List.mem_of_mem_filter hx)
      · -- what is below the new return type is below the old one as well
        rw [Bool.eq_false_iff] at hreturns ⊢
        intro hlow
        exact hreturns (isMoreSpecific_trans hL hroot hlow hmore)
    · right
      constructor
      · intro x hx
        simpa using (List.mem_filter.mp hx).2
      · exact isMoreSpecific_irrefl _

/-- The offer only takes exceptions away. -/
theorem Merged.share {ds : List Declaration} {owner : String} {m : Member} {d : Declaration}
    (h : Merged L ds owner m)
    (hmore : isMoreSpecific L d.member.returns m.returns = false) :
    Merged L (ds ++ [d]) owner { m with
      exceptions := m.exceptions.filter d.member.exceptions.contains } := by
  obtain ⟨c, hc, howner, hreturns⟩ := h.held
  constructor
  · exact ⟨c, List.mem_append_left _ hc, howner, hreturns⟩
  · apply h.heeds_append
    · rintro e ⟨hexceptions, hreturns⟩
      constructor
      · intro x hx
        exact hexceptions x (List.mem_of_mem_filter hx)
      · exact hreturns
    · right
      constructor
      · intro x hx
        simpa using (List.mem_filter.mp hx).2
      · exact hmore

/-- All offers of a key together, if no two of them come from one type. -/
theorem merged_of_settled (hL : L.validate = .ok ()) (hroot : RootOnTop L)
    {ds : List Declaration} (howners : (ds.map (·.owner)).Nodup) {owner : String} {m : Member}
    (h : settled L ds = some (.kept owner m)) : Merged L ds owner m := by
  have hsplit : ∀ {ds : List Declaration} {d : Declaration},
      ((ds ++ [d]).map (·.owner)).Nodup →
        (ds.map (·.owner)).Nodup ∧ ∀ e ∈ ds, e.owner ≠ d.owner := by
    intro ds d hnodup
    rw [List.map_append, List.nodup_append] at hnodup
    obtain ⟨hds, -, hdisjoint⟩ := hnodup
    refine ⟨hds, ?_⟩
    intro e he
    exact hdisjoint e.owner (List.mem_map_of_mem he) d.owner List.mem_cons_self
  -- distinct owners are part of what is shown: every step takes them apart
  refine kept_induction
    (motive := fun ds owner m => (ds.map (·.owner)).Nodup → Merged L ds owner m)
    ?_ ?_ ?_ ?_ h howners
  · intro d _
    exact .first d
  · intro ds owner m d ih hsub hnodup
    obtain ⟨hds, hnew⟩ := hsplit hnodup
    exact (ih hds).below hnew hsub
  · intro ds owner m d ih hmore hnodup
    exact (ih (hsplit hnodup).1).narrow hL hroot hmore
  · intro ds owner m d ih hmore hnodup
    exact (ih (hsplit hnodup).1).share hmore

/-! ## What the member has to override -/

/-- `D` declares the key as `d`, and no other reached type that declares it is below `D`. -/
structure MostDerived (L : Library) (T : Descriptor) (k : MemberKey) (D : Descriptor)
    (d : Member) : Prop where
  reached : L.Reaches T D
  declares : Declares D k d
  lowest : ∀ E e, L.Reaches T E → Declares E k e → L.Reaches E D → E = D

/-- The member can stand for all declarations of its key that the target reaches. -/
structure Overrides (L : Library) (T : Descriptor) (m : Member) : Prop where
  /-- It throws only what every most derived declaration allows. -/
  exceptions : ∀ D d, MostDerived L T m.key D d → ∀ e ∈ m.exceptions, e ∈ d.exceptions
  /-- Its return type is the one of some declaration. -/
  declared : ∃ D d, L.Reaches T D ∧ Declares D m.key d ∧ d.returns = m.returns
  /-- No most derived declaration returns something more specific. -/
  returns : ∀ D d, MostDerived L T m.key D d → isMoreSpecific L d.returns m.returns = false

/-- A most derived declaration is respected: among the offers there is none below it. -/
theorem Merged.respects (hT : T ∈ L.types) {k : MemberKey} {owner : String} {m : Member}
    (h : Merged L (offers L T k) owner m) {D : Descriptor} {d : Member}
    (hD : MostDerived L T k D d) : Respects L m d := by
  have hname : NoNamesake L T := noNamesake_of_mem hT
  have hoffer : (⟨D.name, d⟩ : Declaration) ∈ offers L T k :=
    mem_offers_of_declares hname hD.reached hD.declares
  rcases h.heeds _ hoffer with ⟨e, he, hne, hbelow⟩ | hrespects
  · obtain ⟨E, hE, howner, hdecl⟩ := (mem_offers_iff hname).mp he
    rw [howner] at hne hbelow
    have hED : L.Reaches E D :=
      (Library.reaches_iff (hE.mem_types hT) (hD.reached.mem_types hT)).mpr hbelow
    have heq : E = D := hD.lowest E e.member hE hdecl hED
    exact absurd (congrArg Descriptor.name heq) hne
  · exact hrespects

/-- **Every member of a stub can override the declarations it stands for**, in whatever order they
were met. -/
theorem members_override (hL : L.validate = .ok ()) (hroot : RootOnTop L) (hT : T ∈ L.types)
    (hcheck : checkTarget T = .ok ()) :
    ∃ ms, members L T = .ok ms ∧ ∀ m ∈ ms, Overrides L T m := by
  obtain ⟨ms, hmembers, -, hms⟩ := members_spec hcheck
  refine ⟨ms, hmembers, ?_⟩
  intro m hm
  obtain ⟨owner, hsettled⟩ := (hms m).mp hm
  have hmerged : Merged L (offers L T m.key) owner m :=
    merged_of_settled hL hroot (nodup_owners hL hT m.key) hsettled
  constructor
  · intro D d hD
    exact (hmerged.respects hT hD).1
  · obtain ⟨d, hd, -, hreturns⟩ := hmerged.held
    obtain ⟨D, hD, -, hdecl⟩ := (mem_offers_iff (noNamesake_of_mem hT)).mp hd
    exact ⟨D, d.member, hD, hdecl, hreturns⟩
  · intro D d hD
    exact (hmerged.respects hT hD).2

/-! ### Readers and channels -/

/-- Reaches the same key over two unrelated types and, once more, over a type above one of them. -/
def streamsBoth : Descriptor where
  name := "a.Both"
  supertypes := ["a.Reader", "a.Channel", "a.Source"]

def streams : Library := ⟨[
  { name := "a.Node" },
  { name := "a.Leaf", supertypes := ["a.Node"] },
  { name := "a.Source", members := [{ name := "read", returns := .reference "java.lang.Object" }] },
  { name := "a.Reader"
    supertypes := ["a.Source"]
    members := [{
      name := "read"
      returns := .reference "a.Node"
      exceptions := [.reference "java.io.IOException", .reference "java.lang.Error"] }] },
  { name := "a.Channel"
    members := [{
      name := "read"
      returns := .reference "a.Leaf"
      exceptions := [.reference "java.io.IOException"] }] },
  streamsBoth], by decide⟩

theorem members_override_streams :
    streams.validate = .ok () ∧ RootOnTop streams ∧ streamsBoth ∈ streams.types ∧
      checkTarget streamsBoth = .ok () ∧
      ∃ ms, members streams streamsBoth = .ok ms ∧ ∀ m ∈ ms, Overrides streams streamsBoth m := by
  have hL : streams.validate = .ok () := by decide +kernel
  have hroot : RootOnTop streams := by unfold RootOnTop; decide
  have hT : streamsBoth ∈ streams.types := by decide
  have hcheck : checkTarget streamsBoth = .ok () := by decide
  exact ⟨hL, hroot, hT, hcheck, members_override hL hroot hT hcheck⟩

end Stubwright.Stub

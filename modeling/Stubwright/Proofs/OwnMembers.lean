import Stubwright.Proofs.FirstMet
import Stubwright.Proofs.Override

/-!
# What the target declares itself

    own members ──first of their keys──▶ first slots ──meet──▶ inherited declarations

The declarations of the target come first, so that its own members take the first slots. A slot is
safe from an inherited declaration if its owner is below the type of that declaration, which is
looked up in the library. Main statement (`members_startWithOwn`): the stub of a declared target
starts with the members that the target declares, as it declares them. For any other target, and for
one that the library declares differently, it does exactly if what the library says of that name, or
the inherited declarations themselves, leave them alone (`Undisturbed`). A declared target that
declares every key it meets (`Shadows`) is left with its own members only.
-/

namespace Stubwright.Stub

open Java

variable {L : Library} {T : Descriptor} {m : Member} {ds rest : List Declaration} {owner : String}

/-- The members of the target that an implementation overrides. -/
def own (T : Descriptor) : List Member := T.members.filter Member.isImplementable

/-- No type that the target meets declares a key of its own members in a way that changes them: the
library says that the target is below it, or the member respects what it declares. -/
def Undisturbed (L : Library) (T : Descriptor) : Prop :=
  ∀ m ∈ own T, ∀ D ∈ lineage L T, ∀ d, Declares D m.key d →
    L.isSubtype T.name D.name = true ∨ Respects L m d

/-- A declared target is below all types that it meets. -/
theorem undisturbed_of_mem (hT : T ∈ L.types) : Undisturbed L T := by
  intro m _ D hD d _
  have hreaches : L.Reaches T D := (mem_lineage_iff (noNamesake_of_mem hT)).mp hD
  exact .inl ((Library.reaches_iff hT (hreaches.mem_types hT)).mp hreaches)

/-! ## The keys of the own members -/

/-- Items that are a part of others in front of them, by labels that no two of these share. -/
theorem prefix_iff_of_labels {α β : Type} {label : α → β} {as bs : List α}
    (hnodup : (bs.map label).Nodup) (hlabels : as.map label <+: bs.map label) :
    as <+: bs ↔ ∀ a ∈ as, a ∈ bs := by
  refine ⟨fun h a ha => h.subset ha, fun h => ?_⟩
  induction as generalizing bs with
  | nil => exact List.nil_prefix
  | cons a as ih =>
    cases bs with
    | nil => exact absurd (h a List.mem_cons_self) List.not_mem_nil
    | cons b bs =>
      rw [List.map_cons, List.map_cons, List.cons_prefix_cons] at hlabels
      obtain ⟨hlabel, hlabels⟩ := hlabels
      obtain rfl : a = b :=
        List.inj_on_of_nodup_map hnodup (h a List.mem_cons_self) List.mem_cons_self hlabel
      rw [List.map_cons, List.nodup_cons] at hnodup
      refine List.cons_prefix_cons.mpr ⟨rfl, ih hnodup.2 hlabels fun c hc => ?_⟩
      refine (List.mem_cons.mp (h c (List.mem_cons_of_mem _ hc))).resolve_left fun hca => ?_
      exact hnodup.1 (hlabels.subset (hca ▸ List.mem_map_of_mem hc))

theorem eraseDups_of_nodup {α : Type} [DecidableEq α] {items : List α} (h : items.Nodup) :
    items.eraseDups = items := by
  induction items with
  | nil => rfl
  | cons a items ih =>
    obtain ⟨hnew, hitems⟩ := List.nodup_cons.mp h
    have hkept : items.filter (fun b => !b == a) = items :=
      List.filter_eq_self.mpr fun b hb => by
        simpa using fun hba : b = a => hnew (hba ▸ hb)
    rw [List.eraseDups_cons, hkept, ih hitems]

/-- The first offer of the key of an own member is its own declaration. -/
theorem offers_own (L : Library) (hkeys : (T.members.map Member.key).Nodup) (hm : m ∈ T.members)
    (hstatic : m.isStatic = false) : ∃ rest, offers L T m.key = ⟨T.name, m⟩ :: rest := by
  obtain ⟨met, -, -, hlineage⟩ := exists_follows_lineage L T
  have hdecl : (⟨T.name, m⟩ : Declaration) ∈ (declarations T).filter (·.member.key = m.key) := by
    rw [List.mem_filter, mem_declarations_iff]
    exact ⟨⟨rfl, hm, hstatic, rfl⟩, decide_eq_true rfl⟩
  rw [offers, offered, hlineage, List.flatMap_cons, List.filter_append]
  cases hfound : (declarations T).filter (·.member.key = m.key) with
  | nil =>
    rw [hfound] at hdecl
    cases hdecl
  | cons d ds =>
    have hd : d ∈ (declarations T).filter (·.member.key = m.key) := hfound ▸ List.mem_cons_self
    obtain ⟨hd, hkey⟩ := List.mem_filter.mp hd
    obtain ⟨howner, hmem, -⟩ := mem_declarations_iff.mp hd
    have hsame : d = ⟨T.name, m⟩ := by
      rw [← howner, ← List.inj_on_of_nodup_map hkeys hmem hm (of_decide_eq_true hkey)]
    rw [hsame]
    exact ⟨_, rfl⟩

/-- The keys of the own members come first, in order. -/
theorem keys_own_prefix (hkeys : (T.members.map Member.key).Nodup) :
    (own T).map Member.key <+: openKeys (declaredMembers (lineage L T)) := by
  have hopen : ∀ m ∈ T.members.filter (!·.isStatic),
      isOpen (declaredMembers (lineage L T)) m.key = !m.isFinal := by
    intro m hm
    obtain ⟨hm, hstatic⟩ := List.mem_filter.mp hm
    obtain ⟨rest, hoffers⟩ := offers_own L hkeys hm (by simpa using hstatic)
    rw [isOpen, firstOf?_lineage, hoffers]
    rfl
  have hown : (own T).map Member.key
      = ((T.members.filter (!·.isStatic)).map Member.key).filter
          (isOpen (declaredMembers (lineage L T))) := by
    rw [List.filter_map, own]
    congr 1
    rw [show (T.members.filter (!·.isStatic)).filter
          (isOpen (declaredMembers (lineage L T)) ∘ Member.key)
        = (T.members.filter (!·.isStatic)).filter (!·.isFinal) from List.filter_congr hopen,
      List.filter_filter]
    refine List.filter_congr fun m _ => ?_
    rw [Member.isImplementable, Bool.and_comm]
  obtain ⟨met, -, -, hlineage⟩ := exists_follows_lineage L T
  have hdeclared : declaredMembers (lineage L T)
      = T.members.filter (!·.isStatic) ++ declaredMembers met := by
    rw [hlineage]
    exact List.flatMap_cons
  have hnodup : ((T.members.filter (!·.isStatic)).map Member.key).Nodup :=
    (List.filter_sublist.map _).nodup hkeys
  rw [hown, openKeys]
  generalize isOpen (declaredMembers (lineage L T)) = keep
  rw [hdeclared, List.map_append, List.eraseDups_append, eraseDups_of_nodup hnodup,
    List.filter_append]
  exact List.prefix_append _ _

/-! ## What becomes of an own member -/

/-- The first offer stays as it is if its owner is below the others, or it respects them. -/
theorem settled_of_undisturbed {d : Declaration} (hd : d.member.isFinal = false)
    (h : ∀ e ∈ ds, L.isSubtype d.owner e.owner = true ∨ Respects L d.member e.member) :
    settled L (d :: ds) = some (.kept d.owner d.member) := by
  induction ds using List.reverseRecOn with
  | nil => simp [settled, take, Slot.first, hd]
  | append_singleton ds e ih =>
    have ih := ih fun c hc => h c (List.mem_append_left _ hc)
    rw [← List.cons_append, settled_append, ih, take, Option.some.injEq]
    by_cases hsub : L.isSubtype d.owner e.owner = true
    · exact meet_below hsub
    · have hrespects : Respects L d.member e.member :=
        (h e (List.mem_append_right _ List.mem_cons_self)).resolve_left hsub
      have hshared : d.member.exceptions.filter e.member.exceptions.contains
          = d.member.exceptions :=
        List.filter_eq_self.mpr fun x hx => by simpa using hrespects.1 x hx
      rw [meet_share hsub (Bool.eq_false_iff.mp hrespects.2), hshared]

/-- What some offers have left of a member: it throws no more than before, it returns something more
specific or is still held by its owner, and it was not disturbed if it is the same. -/
structure Held (L : Library) (first : Declaration) (ds : List Declaration) (owner : String)
    (m : Member) : Prop where
  exceptions : m.exceptions.Sublist first.member.exceptions
  returns : isMoreSpecific L m.returns first.member.returns = true ∨
    owner = first.owner ∧ m.returns = first.member.returns
  undisturbed : m.returns = first.member.returns → m.exceptions = first.member.exceptions →
    ∀ e ∈ ds, L.isSubtype first.owner e.owner = true ∨ Respects L first.member e.member

variable {first d : Declaration}

theorem Held.self (first : Declaration) : Held L first [first] first.owner first.member where
  exceptions := .refl _
  returns := .inr ⟨rfl, rfl⟩
  undisturbed _ _ e he := by
    rw [List.mem_singleton.mp he]
    exact .inl (Library.isSubtype_refl _)

/-- A member that returns the same is still held by its owner. -/
theorem Held.owner_eq (h : Held L first ds owner m) (hreturns : m.returns = first.member.returns) :
    owner = first.owner := by
  rcases h.returns with hmore | ⟨howner, -⟩
  · rw [hreturns, isMoreSpecific_irrefl] at hmore
    cases hmore
  · exact howner

theorem Held.below (h : Held L first ds owner m) (hsub : L.isSubtype owner d.owner = true) :
    Held L first (ds ++ [d]) owner m where
  exceptions := h.exceptions
  returns := h.returns
  undisturbed hreturns hexceptions e he := by
    rcases List.mem_append.mp he with he | he
    · exact h.undisturbed hreturns hexceptions e he
    · rw [List.mem_singleton.mp he, ← h.owner_eq hreturns]
      exact .inl hsub

theorem Held.narrow (hL : L.validate = .ok ()) (hroot : RootOnTop L) (h : Held L first ds owner m)
    (hmore : isMoreSpecific L d.member.returns m.returns = true) :
    Held L first (ds ++ [d]) d.owner { m with
      exceptions := m.exceptions.filter d.member.exceptions.contains
      returns := d.member.returns } := by
  have hfirst : isMoreSpecific L d.member.returns first.member.returns = true := by
    rcases h.returns with hlow | ⟨-, hsame⟩
    · exact isMoreSpecific_trans hL hroot hmore hlow
    · rwa [← hsame]
  constructor
  · exact List.filter_sublist.trans h.exceptions
  · exact .inl hfirst
  · intro hreturns
    rw [show d.member.returns = first.member.returns from hreturns, isMoreSpecific_irrefl] at hfirst
    cases hfirst

theorem Held.share (h : Held L first ds owner m)
    (hmore : isMoreSpecific L d.member.returns m.returns = false) :
    Held L first (ds ++ [d]) owner { m with
      exceptions := m.exceptions.filter d.member.exceptions.contains } where
  exceptions := List.filter_sublist.trans h.exceptions
  returns := h.returns
  undisturbed hreturns hexceptions e he := by
    -- nothing was filtered out, so that the offer allows all that the member throws
    have hkept : m.exceptions = first.member.exceptions :=
      h.exceptions.eq_of_length_le (hexceptions ▸ List.filter_sublist.length_le)
    rcases List.mem_append.mp he with he | he
    · exact h.undisturbed hreturns hkept e he
    · rw [List.mem_singleton.mp he]
      refine .inr ⟨fun x hx => ?_, hreturns ▸ hmore⟩
      rw [← show m.exceptions.filter d.member.exceptions.contains = first.member.exceptions from
        hexceptions] at hx
      simpa using (List.mem_filter.mp hx).2

/-- **A member that is left as it was first declared was not disturbed by any of its offers.** -/
theorem undisturbed_of_settled (hL : L.validate = .ok ()) (hroot : RootOnTop L)
    (h : settled L (first :: rest) = some (.kept owner first.member)) :
    ∀ e ∈ first :: rest,
      L.isSubtype first.owner e.owner = true ∨ Respects L first.member e.member := by
  have hheld : ∃ f fs, first :: rest = f :: fs ∧ Held L f (first :: rest) owner first.member := by
    refine kept_induction
      (motive := fun ds owner m => ∃ f fs, ds = f :: fs ∧ Held L f ds owner m) ?_ ?_ ?_ ?_ h
    · intro d
      exact ⟨d, [], rfl, .self d⟩
    · rintro _ owner m d ⟨f, fs, rfl, hf⟩ hsub
      exact ⟨f, fs ++ [d], rfl, hf.below hsub⟩
    · rintro _ owner m d ⟨f, fs, rfl, hf⟩ hmore
      exact ⟨f, fs ++ [d], rfl, hf.narrow hL hroot hmore⟩
    · rintro _ owner m d ⟨f, fs, rfl, hf⟩ hmore
      exact ⟨f, fs ++ [d], rfl, hf.share hmore⟩
  obtain ⟨f, fs, hcons, hf⟩ := hheld
  obtain ⟨rfl, -⟩ := List.cons_eq_cons.mp hcons
  exact hf.undisturbed rfl rfl

/-! ## The members of a stub -/

theorem mem_own_iff : m ∈ own T ↔ m ∈ T.members ∧ m.isStatic = false ∧ m.isFinal = false := by
  simp [own, Member.isImplementable]

/-- A declaration that the target meets is an offer of its key. -/
theorem undisturbed_iff :
    Undisturbed L T ↔ ∀ m ∈ own T, ∀ d ∈ offers L T m.key,
      L.isSubtype T.name d.owner = true ∨ Respects L m d.member := by
  refine forall₂_congr fun m _ => ?_
  unfold offers offered
  constructor
  · intro h d hd
    rw [List.mem_filter, List.mem_flatMap, decide_eq_true_iff] at hd
    obtain ⟨⟨D, hD, hd⟩, hkey⟩ := hd
    obtain ⟨howner, hdecl⟩ := mem_declarations_iff.mp hd
    rw [howner]
    exact h D hD d.member (hkey ▸ hdecl)
  · intro h D hD d hdecl
    refine h ⟨D.name, d⟩ (List.mem_filter.mpr ⟨List.mem_flatMap.mpr ⟨D, hD, ?_⟩, ?_⟩)
    · exact mem_declarations_iff.mpr ⟨rfl, hdecl.1, hdecl.2.1, rfl⟩
    · exact decide_eq_true hdecl.2.2

/-- Nothing disturbs the own members of a declared target: they stay as they are, in front. -/
theorem own_prefix {ms : List Member} (hT : T ∈ L.types)
    (hkeys : (T.members.map Member.key).Nodup) (hnodup : (ms.map Member.key).Nodup)
    (hlabels : (own T).map Member.key <+: ms.map Member.key)
    (hms : ∀ m, m ∈ ms ↔ ∃ owner, settled L (offers L T m.key) = some (.kept owner m)) :
    own T <+: ms := by
  refine (prefix_iff_of_labels hnodup hlabels).mpr fun m hm => (hms m).mpr ⟨T.name, ?_⟩
  obtain ⟨hmem, hstatic, hfinal⟩ := mem_own_iff.mp hm
  obtain ⟨rest, hoffers⟩ := offers_own L hkeys hmem hstatic
  have hundisturbed := undisturbed_iff.mp (undisturbed_of_mem hT) m hm
  rw [hoffers] at hundisturbed ⊢
  exact settled_of_undisturbed hfinal (List.forall_mem_cons.mp hundisturbed).2

/-- The target declares every key that it meets. -/
def Shadows (L : Library) (T : Descriptor) : Prop :=
  ∀ D ∈ lineage L T, ∀ k d, Declares D k d → ∃ m, Declares T k m

/-- Then the first offer of every key that is provided is an own member. -/
theorem Shadows.exists_own {ms : List Member} (h : Shadows L T) (hT : T ∈ L.types)
    (hkeys : (T.members.map Member.key).Nodup)
    (hms : ∀ m, m ∈ ms ↔ ∃ owner, settled L (offers L T m.key) = some (.kept owner m)) :
    ∀ m ∈ ms, ∃ m' ∈ own T, m'.key = m.key := by
  intro m hm
  obtain ⟨d, rest, hoffers, hfinal⟩ := (exists_member_iff hms).mp ⟨m, hm, rfl⟩
  have hd : d ∈ offers L T m.key := hoffers ▸ List.mem_cons_self
  obtain ⟨D, hD, -, hdecl⟩ := (mem_offers_iff (noNamesake_of_mem hT)).mp hd
  have hD : D ∈ lineage L T := (mem_lineage_iff (noNamesake_of_mem hT)).mpr hD
  obtain ⟨m', hm', hstatic, hkey⟩ := h D hD m.key d.member hdecl
  obtain ⟨rest', hoffers'⟩ := offers_own L hkeys hm' hstatic
  rw [hkey, hoffers, List.cons.injEq] at hoffers'
  rw [hoffers'.1] at hfinal
  exact ⟨m', mem_own_iff.mpr ⟨hm', hstatic, hfinal⟩, hkey⟩

/-- **A target that declares every key it meets is left with its own members only.** -/
theorem Shadows.members_eq (h : Shadows L T) (hT : T ∈ L.types) (hcheck : checkTarget T = .ok ())
    (hkeys : (T.members.map Member.key).Nodup) : members L T = .ok (own T) := by
  obtain ⟨ms, hmembers, hnodup, hms⟩ := members_spec (L := L) hcheck
  have hlabels : (own T).map Member.key <+: ms.map Member.key := by
    rw [members, hcheck] at hmembers
    obtain rfl : provided (slots L T) = ms := Except.ok.inj hmembers
    rw [keys_provided]
    exact keys_own_prefix hkeys
  have hown : ∀ m ∈ ms, ∃ m' ∈ own T, m'.key = m.key := h.exists_own hT hkeys hms
  obtain ⟨rest, rfl⟩ := own_prefix hT hkeys hnodup hlabels hms
  cases rest with
  | nil => rw [hmembers, List.append_nil]
  | cons m rest =>
    -- its key would come twice
    obtain ⟨m', hm', hkey⟩ := hown m (List.mem_append_right _ List.mem_cons_self)
    rw [List.map_append, List.nodup_append] at hnodup
    have hm : m.key ∈ (m :: rest).map Member.key := List.mem_map_of_mem List.mem_cons_self
    exact absurd hkey (hnodup.2.2 m'.key (List.mem_map_of_mem hm') m.key hm)

/-- **The own members of a target come first.** If a target can be implemented and no two of its
members share a key, then the keys of its own members are the first keys of its stub, in order. The
members there are as the target declares them if the library declares the target, and for any target
whose own members are not disturbed; below a root class on top, they are for no other target. -/
theorem members_startWithOwn (hL : L.validate = .ok ()) (hcheck : checkTarget T = .ok ())
    (hkeys : (T.members.map Member.key).Nodup) :
    ∃ ms, members L T = .ok ms ∧ (own T).map Member.key <+: ms.map Member.key ∧
      (T ∈ L.types → own T <+: ms) ∧ (Undisturbed L T → own T <+: ms) ∧
      (RootOnTop L → own T <+: ms → Undisturbed L T) := by
  obtain ⟨ms, hmembers, hnodup, hms⟩ := members_spec (L := L) hcheck
  have hprefix : (own T).map Member.key <+: ms.map Member.key := by
    rw [members, hcheck] at hmembers
    obtain rfl : provided (slots L T) = ms := Except.ok.inj hmembers
    rw [keys_provided]
    exact keys_own_prefix hkeys
  have hkept : Undisturbed L T → own T <+: ms := by
    intro h
    refine (prefix_iff_of_labels hnodup hprefix).mpr fun m hm => (hms m).mpr ⟨T.name, ?_⟩
    obtain ⟨hmem, hstatic, hfinal⟩ := mem_own_iff.mp hm
    obtain ⟨rest, hoffers⟩ := offers_own L hkeys hmem hstatic
    rw [hoffers]
    refine settled_of_undisturbed hfinal fun d hd => undisturbed_iff.mp h m hm d ?_
    rw [hoffers]
    exact List.mem_cons_of_mem _ hd
  refine ⟨ms, hmembers, hprefix, fun hT => hkept (undisturbed_of_mem hT), hkept, ?_⟩
  intro hroot hown
  refine undisturbed_iff.mpr fun m hm => ?_
  obtain ⟨hmem, hstatic, -⟩ := mem_own_iff.mp hm
  obtain ⟨rest, hoffers⟩ := offers_own L hkeys hmem hstatic
  obtain ⟨owner, hsettled⟩ := (hms m).mp (hown.subset hm)
  rw [hoffers] at hsettled ⊢
  exact undisturbed_of_settled hL hroot hsettled

/-! ### A reader that throws less than its source -/

def plainSource : Descriptor where
  name := "a.Source"
  members := [{
    name := "read"
    returns := .reference "java.lang.Object"
    exceptions := [.reference "java.io.IOException"] }]

/-- Overrides `read` with a narrower exception. -/
def fileReader : Descriptor where
  name := "a.Reader"
  supertypes := ["a.Source"]
  members := [{
    name := "read"
    returns := .reference "java.lang.Object"
    exceptions := [.reference "java.io.FileNotFoundException"] }]

def withReader : Library := ⟨[plainSource, fileReader], by decide⟩

def withoutReader : Library := ⟨[plainSource], by decide⟩

theorem members_startWithOwn_fileReader :
    withReader.validate = .ok () ∧ checkTarget fileReader = .ok () ∧
      (fileReader.members.map Member.key).Nodup ∧ fileReader ∈ withReader.types ∧
      ∃ ms, members withReader fileReader = .ok ms ∧
        (own fileReader).map Member.key <+: ms.map Member.key ∧
        (fileReader ∈ withReader.types → own fileReader <+: ms) ∧
        (Undisturbed withReader fileReader → own fileReader <+: ms) ∧
        (RootOnTop withReader → own fileReader <+: ms → Undisturbed withReader fileReader) := by
  have hL : withReader.validate = .ok () := by decide +kernel
  have hcheck : checkTarget fileReader = .ok () := by decide
  have hkeys : (fileReader.members.map Member.key).Nodup := by decide
  exact ⟨hL, hcheck, hkeys, by decide, members_startWithOwn hL hcheck hkeys⟩

/-- Where the library does not declare the reader, its stub loses the exception that it declares. -/
theorem undeclared_reader_loses_exception :
    withoutReader.validate = .ok () ∧ checkTarget fileReader = .ok () ∧
      Library.checkType fileReader = .ok () ∧ own fileReader = fileReader.members ∧
      members withoutReader fileReader
        = .ok [{ name := "read", returns := .reference "java.lang.Object", exceptions := [] }] := by
  refine ⟨by decide +kernel, by decide, by decide +kernel, by decide, ?_⟩
  have hmet : withoutReader.Follows ["a.Reader"] ["a.Source"]
      (plainSource :: ([] ++ [])) ["a.Source", "a.Reader"] := .visit (by decide) (by decide) .done .done
  have hlineage : [fileReader, plainSource] = lineage withoutReader fileReader :=
    depthFirst_iff.mp ⟨_, _, hmet, rfl⟩
  -- the reader is not below its source, as the library does not know what it extends
  have hsub : ¬ withoutReader.isSubtype "a.Reader" "a.Source" = true := by
    rw [Library.isSubtype_of_not_mem (by decide)]
    decide
  have hmore : ¬ isMoreSpecific withoutReader (.reference "java.lang.Object")
      (.reference "java.lang.Object") = true := by decide
  have hslots : slots withoutReader fileReader
      = [⟨⟨"read", []⟩, (Standing.kept "a.Reader"
          { name := "read"
            returns := .reference "java.lang.Object"
            exceptions := [.reference "java.io.FileNotFoundException"] }).meet withoutReader
          ⟨"a.Source", plainSource.members.head (by decide)⟩⟩] := by
    rw [slots, offered, ← hlineage]
    rfl
  rw [members, hslots, meet_share hsub hmore]
  rfl

end Stubwright.Stub

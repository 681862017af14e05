import Mathlib.Data.List.Permutation
import Stubwright.Proofs.Slots

/-!
# Where the order of meeting decides

The first declaration of a key is taken as it is; later ones are met. This is not the same in every
order, and two results say exactly when it shows.

* `final_provided_iff` — a key that some type declares as final, with no type below that opens it
  again, should never be provided. It is provided if, and only if, a type that leaves it open is met
  before all others that declare it.
* `redeclared_returns_iff` — a redeclaration should shadow the one declaration above it. Its return
  type is taken if, and only if, it is met first, or the return types are the same, or its own is the
  more specific one in the library.

Both conditions can fail in valid libraries (`final_is_provided`, `redeclaration_is_lost`).
-/

namespace Stubwright.Stub

open Java

variable {L : Library} {T : Descriptor} {k : MemberKey}

/-! ## Which of two types is met first -/

/-- The walk from the target meets the first type before the second. -/
def MetBefore (L : Library) (T D E : Descriptor) : Prop :=
  [D.name, E.name].Sublist ((lineage L T).map (·.name))

theorem not_sublist_swap {α : Type} {a b : α} {l : List α} (h : l.Nodup)
    (hab : [a, b].Sublist l) : ¬ [b, a].Sublist l := by
  intro hba
  induction l with
  | nil => cases hab
  | cons c l ih =>
    obtain ⟨hc, hl⟩ := List.nodup_cons.mp h
    cases hab with
    | cons _ hab =>
      cases hba with
      | cons _ hba => exact ih hl hab hba
      | cons_cons _ _ => exact hc (hab.subset (by simp))
    | cons_cons _ hb =>
      cases hba with
      | cons _ hba => exact hc (hba.subset (by simp))
      | cons_cons _ _ => exact hc (hb.subset List.mem_cons_self)

theorem MetBefore.asymm {D E : Descriptor} (h : MetBefore L T D E) : ¬ MetBefore L T E D :=
  not_sublist_swap nodup_lineage_names h

/-- A type declares a key by one offer only. -/
theorem offer_unique (hL : L.validate = .ok ()) (hT : T ∈ L.types) {d e : Declaration}
    (hd : d ∈ offers L T k) (he : e ∈ offers L T k) (h : d.owner = e.owner) : d = e :=
  List.inj_on_of_nodup_map (nodup_owners hL hT k) hd he h

/-- Offers come in the order in which their types are met. -/
theorem metBefore_of_offers (hL : L.validate = .ok ()) (hT : T ∈ L.types) {D E : Descriptor}
    {d e : Declaration} {rest : List Declaration} (hoffers : offers L T k = d :: rest)
    (hd : d.owner = D.name) (he : e ∈ rest) (heE : e.owner = E.name) : MetBefore L T D E := by
  have hpair : [D.name, E.name].Sublist ((offers L T k).map (·.owner)) := by
    rw [hoffers, List.map_cons, hd, ← heE]
    exact (List.singleton_sublist.mpr (List.mem_map_of_mem he)).cons_cons _
  exact hpair.trans (owners_sublist hL hT k)

/-- Of the reached types that declare the key, this one is met before all others. -/
def MetFirst (L : Library) (T : Descriptor) (k : MemberKey) (E : Descriptor) : Prop :=
  ∀ F f, L.Reaches T F → Declares F k f → F ≠ E → MetBefore L T E F

/-- The type that is met first makes the first offer. -/
theorem metFirst_iff (hL : L.validate = .ok ()) (hT : T ∈ L.types) {d : Declaration}
    {rest : List Declaration} (hoffers : offers L T k = d :: rest) {E : Descriptor} {e : Member}
    (hE : L.Reaches T E) (he : Declares E k e) : MetFirst L T k E ↔ d = ⟨E.name, e⟩ := by
  have hname : NoNamesake L T := noNamesake_of_mem hT
  have hd : d ∈ offers L T k := hoffers ▸ List.mem_cons_self
  have hoffer : (⟨E.name, e⟩ : Declaration) ∈ offers L T k :=
    mem_offers_of_declares hname hE he
  constructor
  · intro hfirst
    by_contra hne
    obtain ⟨F, hF, howner, hdecl⟩ := (mem_offers_iff hname).mp hd
    have hFE : F ≠ E := by
      rintro rfl
      exact hne (offer_unique hL hT hd hoffer howner)
    -- the first offer would then come before and after that of `E`
    have hlater : (⟨E.name, e⟩ : Declaration) ∈ rest :=
      List.mem_of_ne_of_mem (Ne.symm hne) (hoffers ▸ hoffer)
    exact (hfirst F d.member hF hdecl hFE).asymm
      (metBefore_of_offers hL hT hoffers howner hlater rfl)
  · rintro rfl F f hF hf hFE
    have hlater : (⟨F.name, f⟩ : Declaration) ∈ rest := by
      have hmem : (⟨F.name, f⟩ : Declaration) ∈ offers L T k :=
        mem_offers_of_declares hname hF hf
      have hne : (⟨F.name, f⟩ : Declaration) ≠ ⟨E.name, e⟩ := by
        intro heq
        apply hFE
        exact Library.eq_of_name (hF.mem_types hT) (hE.mem_types hT)
          (congrArg Declaration.owner heq)
      exact List.mem_of_ne_of_mem hne (hoffers ▸ hmem)
    exact metBefore_of_offers hL hT hoffers rfl hlater rfl

/-! ## Final declarations -/

/-- `D` declares the key as final, and no reached type below `D` opens it again. -/
structure Seals (L : Library) (T : Descriptor) (k : MemberKey) (D : Descriptor)
    (d : Member) : Prop where
  reached : L.Reaches T D
  declares : Declares D k d
  isFinal : d.isFinal = true
  closed : ∀ E e, L.Reaches T E → L.Reaches E D → E ≠ D → Declares E k e → e.isFinal = true

/-- **A final declaration keeps its key out unless a type that leaves the key open, and is not below
it, is met before all others that declare it.** -/
theorem final_provided_iff (hL : L.validate = .ok ()) (hT : T ∈ L.types)
    (hcheck : checkTarget T = .ok ()) {D : Descriptor} {d : Member} (hD : Seals L T k D d) :
    ∃ ms, members L T = .ok ms ∧
      ((∃ m ∈ ms, m.key = k) ↔
        ∃ E e, L.Reaches T E ∧ Declares E k e ∧ e.isFinal = false ∧ ¬ L.Reaches E D ∧
          MetFirst L T k E) := by
  have hname : NoNamesake L T := noNamesake_of_mem hT
  obtain ⟨ms, hmembers, -, hms⟩ := members_spec hcheck
  refine ⟨ms, hmembers, ?_⟩
  rw [exists_member_iff hms]
  constructor
  · rintro ⟨e, rest, hoffers, hopen⟩
    have he : e ∈ offers L T k := hoffers ▸ List.mem_cons_self
    obtain ⟨E, hE, howner, hdecl⟩ := (mem_offers_iff hname).mp he
    refine ⟨E, e.member, hE, hdecl, hopen, ?_, ?_⟩
    · -- an open declaration is not the final one, and none below that is open
      intro hED
      have hne : E ≠ D := by
        rintro rfl
        have hoffer : (⟨E.name, d⟩ : Declaration) ∈ offers L T k :=
          mem_offers_of_declares hname hE hD.declares
        rw [offer_unique hL hT he hoffer howner, hD.isFinal] at hopen
        cases hopen
      rw [hD.closed E e.member hE hED hne hdecl] at hopen
      cases hopen
    · rw [metFirst_iff hL hT hoffers hE hdecl, ← howner]
  · rintro ⟨E, e, hE, hdecl, hopen, -, hfirst⟩
    have hoffer : (⟨E.name, e⟩ : Declaration) ∈ offers L T k :=
      mem_offers_of_declares hname hE hdecl
    obtain ⟨first, rest, hoffers⟩ := List.exists_cons_of_ne_nil (List.ne_nil_of_mem hoffer)
    obtain rfl := (metFirst_iff hL hT hoffers hE hdecl).mp hfirst
    exact ⟨_, rest, hoffers, hopen⟩

/-! ### An open declaration before a final one -/

def plainNamed : Descriptor where
  name := "a.Named"
  members := [{ name := "id", returns := .primitive .long }]

def sealingBase : Descriptor where
  name := "a.Base"
  kind := .classType
  members := [{ name := "id", returns := .primitive .long, isFinal := true }]

/-- Lists the type that seals the key last. -/
def namedBase : Descriptor where
  name := "a.Both"
  kind := .classType
  supertypes := ["a.Named", "a.Base"]

def account : Library := ⟨[plainNamed, sealingBase, namedBase], by decide⟩

theorem seals_account :
    Seals account namedBase ⟨"id", []⟩ sealingBase
      { name := "id", returns := .primitive .long, isFinal := true } := by
  have hT : namedBase ∈ account.types := by decide
  have hbase : sealingBase ∈ account.types := by decide
  refine ⟨(Library.reaches_iff hT hbase).mpr (by decide +kernel),
    ⟨by decide, rfl, rfl⟩, rfl, ?_⟩
  intro E e hE hbelow hne hdecl
  have hsub : account.isSubtype E.name sealingBase.name = true :=
    (Library.reaches_iff (hE.mem_types hT) hbase).mp hbelow
  have hclosed : ∀ E ∈ account.types, account.isSubtype E.name sealingBase.name = true →
      E ≠ sealingBase → ∀ e ∈ E.members, e.isFinal = true := by decide +kernel
  exact hclosed E (hE.mem_types hT) hsub hne e hdecl.1

theorem final_provided_iff_account :
    account.validate = .ok () ∧ namedBase ∈ account.types ∧ checkTarget namedBase = .ok () ∧
      ∃ ms, members account namedBase = .ok ms ∧
        ((∃ m ∈ ms, m.key = ⟨"id", []⟩) ↔
          ∃ E e, account.Reaches namedBase E ∧ Declares E ⟨"id", []⟩ e ∧ e.isFinal = false ∧
            ¬ account.Reaches E sealingBase ∧ MetFirst account namedBase ⟨"id", []⟩ E) := by
  have hL : account.validate = .ok () := by decide +kernel
  have hT : namedBase ∈ account.types := by decide
  have hcheck : checkTarget namedBase = .ok () := by decide
  exact ⟨hL, hT, hcheck, final_provided_iff hL hT hcheck seals_account⟩

/-- The sealed key is provided all the same. -/
theorem final_is_provided :
    account.validate = .ok () ∧ namedBase ∈ account.types ∧ checkTarget namedBase = .ok () ∧
      Seals account namedBase ⟨"id", []⟩ sealingBase
        { name := "id", returns := .primitive .long, isFinal := true } ∧
      ∃ ms, members account namedBase = .ok ms ∧ ∃ m ∈ ms, m.key = ⟨"id", []⟩ := by
  have hmembers : members account namedBase
      = .ok [{ name := "id", returns := .primitive .long }] := by decide +kernel
  exact ⟨by decide +kernel, by decide, by decide, seals_account, _, hmembers, _,
    List.mem_cons_self, rfl⟩

/-! ## Redeclarations -/

/-- `D` declares again what `S` above it declares. Both leave the key open, and no other reached type
declares it. -/
structure Redeclares (L : Library) (T : Descriptor) (k : MemberKey) (D : Descriptor) (d : Member)
    (S : Descriptor) (s : Member) : Prop where
  reached : L.Reaches T D
  above : L.Reaches D S
  ne : D ≠ S
  declares : Declares D k d
  declared : Declares S k s
  isOpen : d.isFinal = false
  wasOpen : s.isFinal = false
  only : ∀ E e, L.Reaches T E → Declares E k e → E = D ∨ E = S

variable {D S : Descriptor} {d s : Member}

/-- The two declarations are all offers, in one order or the other. -/
theorem Redeclares.offers_eq (hL : L.validate = .ok ()) (hT : T ∈ L.types)
    (h : Redeclares L T k D d S s) :
    offers L T k = [⟨D.name, d⟩, ⟨S.name, s⟩] ∨ offers L T k = [⟨S.name, s⟩, ⟨D.name, d⟩] := by
  have hname : NoNamesake L T := noNamesake_of_mem hT
  have hreached : L.Reaches T S := h.reached.trans h.above
  have hd : (⟨D.name, d⟩ : Declaration) ∈ offers L T k :=
    mem_offers_of_declares hname h.reached h.declares
  have hs : (⟨S.name, s⟩ : Declaration) ∈ offers L T k :=
    mem_offers_of_declares hname hreached h.declared
  have hnames : D.name ≠ S.name := by
    intro he
    exact h.ne (Library.eq_of_name (h.reached.mem_types hT) (hreached.mem_types hT) he)
  have hperm : (offers L T k).Perm [⟨D.name, d⟩, ⟨S.name, s⟩] := by
    rw [List.perm_ext_iff_of_nodup (nodup_owners hL hT k).of_map (by simp [hnames])]
    intro e
    rw [List.mem_pair]
    constructor
    · intro he
      obtain ⟨E, hE, howner, hdecl⟩ := (mem_offers_iff hname).mp he
      rcases h.only E e.member hE hdecl with rfl | rfl
      · left
        exact offer_unique hL hT he hd howner
      · right
        exact offer_unique hL hT he hs howner
    · rintro (rfl | rfl)
      · exact hd
      · exact hs
  exact List.perm_pair.mp hperm

/-- Of two offers, the first is taken and the second is met. -/
theorem settled_pair {a : Declaration} (ha : a.member.isFinal = false) (b : Declaration) :
    settled L [a, b] = some ((Standing.kept a.owner a.member).meet L b) := by
  simp [settled, take, Slot.first, ha]

/-- What is kept of the two declarations: the return type of the lower one if it was met first or
narrows the other's. -/
theorem Redeclares.settled_offers (hL : L.validate = .ok ()) (hT : T ∈ L.types)
    (h : Redeclares L T k D d S s) :
    ∃ owner m, settled L (offers L T k) = some (.kept owner m) ∧
      (m.returns = d.returns ↔ MetBefore L T D S ∨ s.returns = d.returns ∨
        isMoreSpecific L d.returns s.returns = true) ∧
      (m.returns = d.returns ∨ m.returns = s.returns) := by
  have hD : D ∈ L.types := h.reached.mem_types hT
  have hS : S ∈ L.types := h.above.mem_types hD
  have hDS : L.isSubtype D.name S.name = true := (Library.reaches_iff hD hS).mp h.above
  rcases h.offers_eq hL hT with hoffers | hoffers
  · -- the lower declaration is the owner: the other one changes nothing
    have hfirst : MetBefore L T D S :=
      metBefore_of_offers hL hT hoffers rfl List.mem_cons_self rfl
    refine ⟨D.name, d, ?_, iff_of_true rfl (Or.inl hfirst), Or.inl rfl⟩
    rw [hoffers, settled_pair h.isOpen, meet_below hDS]
  · -- the upper one is the owner, and not below the other: return types are compared
    have hlater : ¬ MetBefore L T D S :=
      (metBefore_of_offers hL hT hoffers rfl List.mem_cons_self rfl).asymm
    have hSD : ¬ L.isSubtype S.name D.name = true := by
      intro hSD
      exact h.ne (Library.eq_of_name hD hS (Library.isSubtype_antisymm hL hDS hSD))
    rw [hoffers, settled_pair h.wasOpen]
    by_cases hmore : isMoreSpecific L d.returns s.returns = true
    · rw [meet_narrow hSD hmore]
      exact ⟨_, _, rfl, iff_of_true rfl (Or.inr (Or.inr hmore)), Or.inl rfl⟩
    · rw [meet_share hSD hmore]
      refine ⟨_, _, rfl, ?_, Or.inr rfl⟩
      simp only [hlater, hmore, false_or, or_false, Bool.false_eq_true]

/-- **A redeclaration gives the provided member its return type exactly if it is met before the
declaration above it, or the two agree on the type, or its own is more specific.** -/
theorem redeclared_returns_iff (hL : L.validate = .ok ()) (hT : T ∈ L.types)
    (hcheck : checkTarget T = .ok ()) (h : Redeclares L T k D d S s) :
    ∃ ms m, members L T = .ok ms ∧ (∀ n, n ∈ ms ∧ n.key = k ↔ n = m) ∧
      (m.returns = d.returns ↔ MetBefore L T D S ∨ s.returns = d.returns ∨
        isMoreSpecific L d.returns s.returns = true) ∧
      (m.returns = d.returns ∨ m.returns = s.returns) := by
  obtain ⟨ms, hmembers, hnodup, hms⟩ := members_spec (L := L) hcheck
  obtain ⟨owner, m, hsettled, hreturns⟩ := h.settled_offers hL hT
  obtain rfl : m.key = k := key_of_settled key_of_mem_offers hsettled
  have hm : m ∈ ms := (hms m).mpr ⟨owner, hsettled⟩
  refine ⟨ms, m, hmembers, ?_, hreturns⟩
  intro n
  constructor
  · rintro ⟨hn, hkey⟩
    exact List.inj_on_of_nodup_map hnodup hn hm hkey
  · rintro rfl
    exact ⟨hm, rfl⟩

/-! ### A supertype that is listed twice -/

def textSource : Descriptor where
  name := "a.Source"
  members := [{ name := "get", returns := .reference "java.lang.CharSequence" }]

def namedSource : Descriptor where
  name := "a.Named"
  supertypes := ["a.Source"]
  members := [{ name := "get", returns := .reference "java.lang.String" }]

/-- Lists a type that it also reaches over its second supertype. -/
def textBoth : Descriptor where
  name := "a.Both"
  supertypes := ["a.Source", "a.Named"]

/-- The return types are not declared here, so that none of them is known to be more specific. -/
def texts : Library := ⟨[textSource, namedSource, textBoth], by decide⟩

theorem redeclares_texts :
    Redeclares texts textBoth ⟨"get", []⟩
      namedSource { name := "get", returns := .reference "java.lang.String" }
      textSource { name := "get", returns := .reference "java.lang.CharSequence" } where
  reached := (Library.reaches_iff (by decide) (by decide)).mpr (by decide +kernel)
  above := (Library.reaches_iff (by decide) (by decide)).mpr (by decide +kernel)
  ne := by decide
  declares := ⟨by decide, rfl, rfl⟩
  declared := ⟨by decide, rfl, rfl⟩
  isOpen := rfl
  wasOpen := rfl
  only := by
    intro E e hE hdecl
    have htypes : ∀ E ∈ texts.types, ∀ e ∈ E.members, E = namedSource ∨ E = textSource := by decide
    exact htypes E (hE.mem_types (by decide)) e hdecl.1

theorem redeclared_returns_iff_texts :
    texts.validate = .ok () ∧ textBoth ∈ texts.types ∧ checkTarget textBoth = .ok () ∧
      ∃ ms m, members texts textBoth = .ok ms ∧ (∀ n, n ∈ ms ∧ n.key = ⟨"get", []⟩ ↔ n = m) ∧
        (m.returns = .reference "java.lang.String" ↔
          MetBefore texts textBoth namedSource textSource ∨
            JavaType.reference "java.lang.CharSequence" = .reference "java.lang.String" ∨
            isMoreSpecific texts (.reference "java.lang.String")
              (.reference "java.lang.CharSequence") = true) ∧
        (m.returns = .reference "java.lang.String" ∨
          m.returns = .reference "java.lang.CharSequence") := by
  have hL : texts.validate = .ok () := by decide +kernel
  have hT : textBoth ∈ texts.types := by decide
  have hcheck : checkTarget textBoth = .ok () := by decide
  exact ⟨hL, hT, hcheck, redeclared_returns_iff hL hT hcheck redeclares_texts⟩

/-- The member keeps the return type of the upper declaration. -/
theorem redeclaration_is_lost :
    texts.validate = .ok () ∧ textBoth ∈ texts.types ∧ checkTarget textBoth = .ok () ∧
      Redeclares texts textBoth ⟨"get", []⟩
        namedSource { name := "get", returns := .reference "java.lang.String" }
        textSource { name := "get", returns := .reference "java.lang.CharSequence" } ∧
      ∃ ms, members texts textBoth = .ok ms ∧
        ∀ m ∈ ms, m.key = ⟨"get", []⟩ → m.returns ≠ .reference "java.lang.String" := by
  have hmembers : members texts textBoth
      = .ok [{ name := "get", returns := .reference "java.lang.CharSequence" }] := by
    decide +kernel
  refine ⟨by decide +kernel, by decide, by decide, redeclares_texts, _, hmembers, ?_⟩
  decide

end Stubwright.Stub

import Stubwright.Proofs.Legality
import Stubwright.Proofs.Slots

/-!
# Two ways to read a supertype

    entry ──ofName?──▶ class name ──get?──▶ type      when the library is checked
    entry ──────────────────────────get?──▶ type      when members are collected

A check reads a supertype entry as a type name and so forgets the blanks around it. The walk over
supertypes looks the entry up as it stands. Main statement (`supertype_counts_as_written`): an entry
that a check takes for a declared type counts for the members of a stub if it is written as the name
of that type, and then the stub answers for all that the type declares. If it is written otherwise,
with blanks around it, the members are those of the target without the entry
(`padded_supertype_is_lost`).
-/

namespace Stubwright

namespace Library

open Java

variable {L : Library} {T : Descriptor} {s n : String}

/-! ## Entries as a check reads them -/

/-- A check takes the entry for a class of this name. -/
def ReadsAs (s n : String) : Prop := JavaType.ofName? s = some (.reference n)

/-- `T` is the second type or leads to it over supertypes, each taken for what a check reads. -/
inductive ReadReaches (L : Library) (T : Descriptor) : Descriptor → Prop
  | self : ReadReaches L T T
  | next {D E : Descriptor} {s n : String} :
      ReadReaches L T D → s ∈ D.supertypes → ReadsAs s n → L.get? n = some E → ReadReaches L T E

/-- Every type but the first is declared. -/
theorem ReadReaches.mem_types {D : Descriptor} (hT : T ∈ L.types) (h : L.ReadReaches T D) :
    D ∈ L.types := by
  cases h with
  | self => exact hT
  | next _ _ _ hget => exact (get?_eq_some_iff.mp hget).1

theorem binaryName_of_validate (hL : L.validate = .ok ()) {d : Descriptor} (hd : d ∈ L.types) :
    BinaryName d.name := by
  obtain ⟨hname, -⟩ := checkType_eq_ok_iff.mp ((validate_eq_ok_iff.mp hL).1 d hd)
  exact isBinaryName_iff.mp hname

/-- In a valid library every supertype entry is read as some class. -/
theorem readsAs_of_validate (hL : L.validate = .ok ()) {d : Descriptor} (hd : d ∈ L.types)
    (hs : s ∈ d.supertypes) : ∃ n, ReadsAs s n := by
  obtain ⟨-, hsupertypes, -⟩ := checkType_eq_ok_iff.mp ((validate_eq_ok_iff.mp hL).1 d hd)
  obtain ⟨n, hread, -⟩ := checkSupertypes_eq_ok_iff.mp hsupertypes s hs
  exact ⟨n, hread⟩

/-- An entry that is a declared name is read as that name. -/
theorem ReadsAs.eq_of_declared (h : ReadsAs s n) (hL : L.validate = .ok ()) (hs : s ∈ L.names) :
    n = s := by
  obtain ⟨d, hd, rfl⟩ := List.mem_map.mp hs
  have hplain := (binaryName_of_validate hL hd).forall_not_blank
  rw [JavaType.eq_trimmed_of_reference h, Text.trimmed, Text.trim_eq_self hplain,
    String.ofList_toList]

/-- What is reached by names as they stand is also reached as a check reads them. -/
theorem readReaches_of_reaches (hL : L.validate = .ok ()) (hT : T ∈ L.types) {D : Descriptor}
    (h : L.Reaches T D) : L.ReadReaches T D := by
  induction h with
  | self => exact .self
  | @next D E s hTD hs hget ih =>
    obtain ⟨hE, hname⟩ := get?_eq_some_iff.mp hget
    have hdeclared : s ∈ L.names := hname ▸ List.mem_map_of_mem hE
    obtain ⟨n, hread⟩ := readsAs_of_validate hL (hTD.mem_types hT) hs
    obtain rfl := hread.eq_of_declared hL hdeclared
    exact ih.next hs hread hget

end Library

namespace Stub

open Java Library

variable {L : Library} {T : Descriptor} {s n : String}

/-! ## A target without one of its entries -/

/-- The target with no such supertype entry. -/
def withoutSupertype (T : Descriptor) (s : String) : Descriptor :=
  { T with supertypes := T.supertypes.filter (· ≠ s) }

/-- The names that have types in the walk from a target. -/
def isNode (L : Library) (T : Descriptor) (name : String) : Bool := name ∈ T.name :: L.names

/-- The entry leads to no type, so that both targets lead to the same types. -/
theorem knownSupertypes_withoutSupertype (hs : isNode L T s = false) (name : String) :
    (knownSupertypes L (withoutSupertype T s) name).filter (isNode L T)
      = (knownSupertypes L T name).filter (isNode L T) := by
  unfold knownSupertypes known
  by_cases hname : name = T.name
  · have hname' : name = (withoutSupertype T s).name := hname
    rw [if_pos hname, if_pos hname']
    show (T.supertypes.filter (· ≠ s)).filter (isNode L T) = T.supertypes.filter (isNode L T)
    rw [List.filter_filter]
    refine List.filter_congr fun entry _ => ?_
    by_cases hentry : entry = s
    · rw [hentry, hs]
      rfl
    · simp [hentry]
  · have hname' : name ≠ (withoutSupertype T s).name := hname
    rw [if_neg hname, if_neg hname']

theorem known_eq_none (h : isNode L T s = false) : known L T s = none := by
  simp only [isNode, List.mem_cons, decide_eq_false_iff_not, not_or] at h
  obtain ⟨hself, hdeclared⟩ := h
  rw [known, if_neg hself, get?_eq_none_iff]
  exact hdeclared

/-- The walk from a target may keep to the names that have types. -/
theorem lineage_eq (L : Library) (T : Descriptor) :
    lineage L T = (Graph.preorder (fun name => (knownSupertypes L T name).filter (isNode L T))
      (T.name :: L.names) T.name).filterMap (known L T) := by
  have hnodes : ∀ name ∈ T.name :: L.names, isNode L T name = true := by simp [isNode]
  rw [← Graph.preorder_filter hnodes (hnodes T.name List.mem_cons_self), List.filterMap_filter]
  unfold lineage
  refine List.filterMap_congr fun name _ => ?_
  cases hname : isNode L T name with
  | true => rfl
  | false => exact known_eq_none hname

/-- Both targets declare the same, and so does every other name. -/
theorem flatMap_known_withoutSupertype (names : List String) :
    (names.filterMap (known L (withoutSupertype T s))).flatMap declarations
      = (names.filterMap (known L T)).flatMap declarations := by
  induction names with
  | nil => rfl
  | cons name names ih =>
    by_cases hname : name = T.name
    · have hT : known L T name = some T := if_pos hname
      have hT' : known L (withoutSupertype T s) name = some (withoutSupertype T s) := if_pos hname
      rw [List.filterMap_cons_some hT, List.filterMap_cons_some hT', List.flatMap_cons,
        List.flatMap_cons, ih]
      rfl
    · have hother : known L (withoutSupertype T s) name = known L T name := by
        rw [known, known, if_neg hname]
        exact if_neg hname
      cases hknown : known L T name with
      | none =>
        rw [List.filterMap_cons_none hknown, List.filterMap_cons_none (hother.trans hknown), ih]
      | some d =>
        rw [List.filterMap_cons_some hknown, List.filterMap_cons_some (hother.trans hknown),
          List.flatMap_cons, List.flatMap_cons, ih]

/-- Without an entry that leads to no type, a target meets the same declarations. -/
theorem offered_withoutSupertype (hs : isNode L T s = false) :
    offered L (withoutSupertype T s) = offered L T := by
  have hwalk : (fun name => (knownSupertypes L (withoutSupertype T s) name).filter (isNode L T))
      = fun name => (knownSupertypes L T name).filter (isNode L T) :=
    funext (knownSupertypes_withoutSupertype hs)
  unfold offered
  rw [lineage_eq, lineage_eq]
  show ((Graph.preorder
      (fun name => (knownSupertypes L (withoutSupertype T s) name).filter (isNode L T))
      (T.name :: L.names) T.name).filterMap (known L (withoutSupertype T s))).flatMap declarations
    = _
  rw [hwalk, flatMap_known_withoutSupertype]

theorem members_withoutSupertype (hs : isNode L T s = false) :
    members L (withoutSupertype T s) = members L T := by
  have hcheck : checkTarget (withoutSupertype T s) = checkTarget T := rfl
  unfold members slots
  rw [hcheck, offered_withoutSupertype hs]

/-! ## What an entry counts for -/

/-- A key that is declared and still not provided is declared as final somewhere. -/
theorem final_of_no_member {ms : List Member}
    (hms : ∀ m, m ∈ ms ↔ ∃ owner, settled L (offers L T m.key) = some (.kept owner m))
    (hname : NoNamesake L T) {D : Descriptor} {k : MemberKey} {d : Member}
    (hD : L.Reaches T D) (hd : Declares D k d) (hmem : ¬ ∃ m ∈ ms, m.key = k) :
    ∃ E e, L.Reaches T E ∧ Declares E k e ∧ e.isFinal = true := by
  have hoffer : (⟨D.name, d⟩ : Declaration) ∈ offers L T k := mem_offers_of_declares hname hD hd
  obtain ⟨first, rest, hoffers⟩ := List.exists_cons_of_ne_nil (List.ne_nil_of_mem hoffer)
  have hfirst : first ∈ offers L T k := hoffers ▸ List.mem_cons_self
  obtain ⟨E, hE, -, he⟩ := (mem_offers_iff hname).mp hfirst
  rw [exists_member_iff hms] at hmem
  cases hfinal : first.member.isFinal with
  | true => exact ⟨E, first.member, hE, he, hfinal⟩
  | false => exact absurd ⟨first, rest, hoffers, hfinal⟩ hmem

/-- **A supertype entry counts as it is written.** Let a check read an entry of the target as a
declared type. If the entry is the name of that type, the stub answers for all keys the type
declares. If it is not, the members are those of the target without the entry. -/
theorem supertype_counts_as_written (hL : L.validate = .ok ()) (hT : T ∈ L.types)
    (hcheck : checkTarget T = .ok ()) (hs : s ∈ T.supertypes) (hread : ReadsAs s n)
    {D : Descriptor} (hD : L.get? n = some D) :
    (s = n → ∃ ms, members L T = .ok ms ∧ ∀ k d, Declares D k d →
      (∃ m ∈ ms, m.key = k) ∨ ∃ E e, L.ReadReaches T E ∧ Declares E k e ∧ e.isFinal = true) ∧
    (s ≠ n → members L T = members L (withoutSupertype T s)) := by
  constructor
  · rintro rfl
    obtain ⟨ms, hmembers, -, hms⟩ := members_spec hcheck
    refine ⟨ms, hmembers, ?_⟩
    intro k d hd
    by_cases hmem : ∃ m ∈ ms, m.key = k
    · exact Or.inl hmem
    · right
      have hreached : L.Reaches T D := Reaches.self.next hs hD
      obtain ⟨E, e, hE, he, hfinal⟩ := final_of_no_member hms (noNamesake_of_mem hT) hreached hd hmem
      exact ⟨E, e, readReaches_of_reaches hL hT hE, he, hfinal⟩
  · intro hne
    -- had the entry a type of its own, a check would read it as that
    have hnode : isNode L T s = false := by
      have hdeclared : s ∉ L.names := fun h => hne (hread.eq_of_declared hL h).symm
      have hself : s ≠ T.name := fun h => hdeclared (h ▸ List.mem_map_of_mem hT)
      simp [isNode, hself, hdeclared]
    exact (members_withoutSupertype hnode).symm

/-! ### Blanks around a name -/

def runHolder : Descriptor where
  name := "a.Base"
  members := [{ name := "run", returns := .primitive .void }]

def nameHolder : Descriptor where
  name := "a.Named"
  members := [{ name := "name", returns := .reference "java.lang.String" }]

/-- Lists the first type with blanks around its name. -/
def paddedTop : Descriptor where
  name := "a.Top"
  supertypes := [" a.Base ", "a.Named"]

def padded : Library := ⟨[runHolder, nameHolder, paddedTop], by decide⟩

theorem supertype_counts_as_written_padded :
    padded.validate = .ok () ∧ paddedTop ∈ padded.types ∧ checkTarget paddedTop = .ok () ∧
      " a.Base " ∈ paddedTop.supertypes ∧ ReadsAs " a.Base " "a.Base" ∧
      padded.get? "a.Base" = some runHolder ∧
      "a.Named" ∈ paddedTop.supertypes ∧ ReadsAs "a.Named" "a.Named" ∧
      padded.get? "a.Named" = some nameHolder ∧
      members padded paddedTop = members padded (withoutSupertype paddedTop " a.Base ") ∧
      ∃ ms, members padded paddedTop = .ok ms ∧ ∀ k d, Declares nameHolder k d →
        (∃ m ∈ ms, m.key = k) ∨
          ∃ E e, padded.ReadReaches paddedTop E ∧ Declares E k e ∧ e.isFinal = true := by
  have hL : padded.validate = .ok () := by decide +kernel
  have hT : paddedTop ∈ padded.types := by decide
  have hcheck : checkTarget paddedTop = .ok () := by decide
  have hbase : ReadsAs " a.Base " "a.Base" := by
    unfold ReadsAs
    decide +kernel
  have hnamed : ReadsAs "a.Named" "a.Named" := by
    unfold ReadsAs
    decide +kernel
  have hgetBase : padded.get? "a.Base" = some runHolder := by decide
  have hgetNamed : padded.get? "a.Named" = some nameHolder := by decide
  have hlost := supertype_counts_as_written hL hT hcheck (by decide) hbase hgetBase
  have hkept := supertype_counts_as_written hL hT hcheck (by decide) hnamed hgetNamed
  exact ⟨hL, hT, hcheck, by decide, hbase, hgetBase, by decide, hnamed, hgetNamed,
    hlost.2 (by decide), hkept.1 rfl⟩

/-- The stub lacks what the type with blanks around its name declares, and no type that is reached
declares it as final. -/
theorem padded_supertype_is_lost :
    padded.validate = .ok () ∧ paddedTop ∈ padded.types ∧ checkTarget paddedTop = .ok () ∧
      " a.Base " ∈ paddedTop.supertypes ∧ ReadsAs " a.Base " "a.Base" ∧
      padded.get? "a.Base" = some runHolder ∧
      ∃ d, Declares runHolder ⟨"run", []⟩ d ∧
        (∃ ms, members padded paddedTop = .ok ms ∧ ∀ m ∈ ms, m.key ≠ ⟨"run", []⟩) ∧
        ¬ ∃ E e, padded.ReadReaches paddedTop E ∧ Declares E ⟨"run", []⟩ e ∧ e.isFinal = true := by
  have hmembers : members padded paddedTop
      = .ok [{ name := "name", returns := .reference "java.lang.String" }] := by decide +kernel
  refine ⟨by decide +kernel, by decide, by decide, by decide, ?_, by decide,
    { name := "run", returns := .primitive .void }, ⟨by decide, rfl, rfl⟩,
    ⟨_, hmembers, by decide⟩, ?_⟩
  · unfold ReadsAs
    decide +kernel
  · rintro ⟨E, e, hE, hdecl, hfinal⟩
    have hE : E ∈ padded.types := hE.mem_types (by decide)
    have hopen : ∀ E ∈ padded.types, ∀ e ∈ E.members, e.isFinal = false := by decide
    rw [hopen E hE e hdecl.1] at hfinal
    cases hfinal

end Stub
end Stubwright

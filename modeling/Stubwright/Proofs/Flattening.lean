import Stubwright.Proofs.Arrangement
import Stubwright.Proofs.OnePass
import Stubwright.Proofs.Override
import Stubwright.Proofs.Provided

/-!
# Flattened types

    T and its supertypes ──members──▶ ms ──flattened──▶ type that declares ms and inherits nothing

What the stub of a type provides can be declared by the type itself, in place of its supertypes.
Main statement (`flattened_provides_same`): a valid library stays valid with the flattened type, and
the stub of that type is the one it had before. The type passes its checks because provided members
do, and taking supertypes away closes no cycle (`Library.validate_replace`).
-/

namespace Stubwright

open Java

/-! ## Replacing a type -/

namespace Library

variable {L : Library} {F d : Descriptor}

/-- The library with another type in the place of the one of the same name. -/
def replace (L : Library) (F : Descriptor) : Library where
  types := L.types.map fun d => if d.name = F.name then F else d
  distinct := by
    have hnames : (L.types.map fun d => if d.name = F.name then F else d).map (·.name)
        = L.types.map (·.name) := by
      rw [List.map_map]
      refine List.map_congr_left fun d _ => ?_
      show (if d.name = F.name then F else d).name = d.name
      split
      · next hname => exact hname.symm
      · rfl
    rw [hnames]
    exact L.distinct

theorem mem_types_replace :
    d ∈ (L.replace F).types ↔ d = F ∧ F.name ∈ L.names ∨ d ∈ L.types ∧ d.name ≠ F.name := by
  unfold replace names
  rw [List.mem_map, List.mem_map]
  constructor
  · rintro ⟨e, he, rfl⟩
    split
    · next hname => exact .inl ⟨rfl, e, he, hname⟩
    · next hname => exact .inr ⟨he, hname⟩
  · rintro (⟨rfl, e, he, hname⟩ | ⟨hd, hname⟩)
    · exact ⟨e, he, if_pos hname⟩
    · exact ⟨d, hd, if_neg hname⟩

theorem mem_names_replace {name : String} (h : name ∈ (L.replace F).names) : name ∈ L.names := by
  obtain ⟨d, hd, rfl⟩ := List.mem_map.mp h
  rcases mem_types_replace.mp hd with ⟨rfl, hF⟩ | ⟨hd, -⟩
  · exact hF
  · exact List.mem_map_of_mem hd

/-- A type that inherits nothing leaves only steps that were there before. -/
theorem inherits_of_replace (hnil : F.supertypes = []) {a b : String}
    (h : (L.replace F).Inherits a b) : L.Inherits a b := by
  obtain ⟨d, hd, rfl, hb, hdeclared⟩ := h
  rcases mem_types_replace.mp hd with ⟨rfl, -⟩ | ⟨hd, -⟩
  · rw [hnil] at hb
    cases hb
  · exact ⟨d, hd, rfl, hb, mem_names_replace hdeclared⟩

/-- **A valid library stays valid** with a type that is legal and inherits nothing. -/
theorem validate_replace (hL : L.validate = .ok ()) (hF : checkType F = .ok ())
    (hnil : F.supertypes = []) : (L.replace F).validate = .ok () := by
  obtain ⟨htypes, hacyclic⟩ := validate_iff_not_cyclic.mp hL
  refine validate_iff_not_cyclic.mpr ⟨?_, ?_⟩
  · intro d hd
    rcases mem_types_replace.mp hd with ⟨rfl, -⟩ | ⟨hd, -⟩
    · exact hF
    · exact htypes d hd
  · rintro ⟨name, hround⟩
    exact hacyclic ⟨name, Relation.TransGen.mono (fun _ _ => inherits_of_replace hnil) name name hround⟩

end Library

namespace Stub

open Library

variable {L : Library} {T F : Descriptor} {m : Member} {ms : List Member} {ds : List Declaration}

/-! ## A type that inherits nothing -/

theorem lineage_of_no_supertypes (hnil : F.supertypes = []) : lineage L F = [F] := by
  have hmet : DepthFirst L F [F] := ⟨[], [F.name], by rw [hnil]; exact .done, rfl⟩
  exact (depthFirst_iff.mp hmet).symm

/-- Declarations of distinct keys each take a slot of their own. -/
theorem slots_of_distinct (hkeys : (ds.map (·.member.key)).Nodup) :
    ds.foldl (absorb L) [] = ds.map Slot.first := by
  induction ds using List.reverseRecOn with
  | nil => rfl
  | append_singleton ds d ih =>
    rw [List.map_append, List.nodup_append] at hkeys
    obtain ⟨hds, -, hnew⟩ := hkeys
    have hkey : d.member.key ∉ (ds.map Slot.first).map (·.key) := by
      rw [List.map_map]
      intro hmem
      exact hnew d.member.key hmem d.member.key List.mem_cons_self rfl
    rw [List.foldl_append, ih hds, List.foldl_cons, List.foldl_nil, absorb_new hkey, List.map_append]
    rfl

/-- The stub of a type that inherits nothing provides the members of the type. -/
theorem members_of_no_supertypes (hcheck : checkTarget F = .ok ()) (hnil : F.supertypes = [])
    (hkeys : (F.members.map Member.key).Nodup) (hopen : ∀ m ∈ F.members, m.isImplementable = true) :
    members L F = .ok F.members := by
  have hdeclarations : declarations F = F.members.map (⟨F.name, ·⟩) := by
    rw [declarations, List.filter_eq_self.mpr]
    intro m hm
    exact (Bool.and_eq_true_iff.mp (hopen m hm)).1
  have hslots : slots L F = (F.members.map (⟨F.name, ·⟩)).map Slot.first := by
    rw [slots, offered, lineage_of_no_supertypes hnil, List.flatMap_singleton, hdeclarations]
    apply slots_of_distinct
    rw [List.map_map]
    exact hkeys
  rw [members, hcheck, hslots, List.filterMap_map, List.filterMap_map]
  have hmember : ∀ m ∈ F.members, (Slot.first ⟨F.name, m⟩).member? = some m := by
    intro m hm
    have hfinal : m.isFinal = false := by simpa using (Bool.and_eq_true_iff.mp (hopen m hm)).2
    simp [Slot.first, Slot.member?, hfinal]
  exact congrArg Except.ok ((List.filterMap_congr hmember).trans List.filterMap_some)

/-! ## Flattening -/

/-- The type with the given members in place of its own and of its supertypes. -/
def flattened (T : Descriptor) (ms : List Member) : Descriptor :=
  { T with supertypes := [], members := ms }

/-- Provided members can be overridden, since their first declarations can. -/
theorem isImplementable_of_mem
    (hms : ∀ m, m ∈ ms ↔ ∃ owner, settled L (offers L T m.key) = some (.kept owner m))
    (hm : m ∈ ms) : m.isImplementable = true := by
  obtain ⟨owner, hsettled⟩ := (hms m).mp hm
  obtain ⟨⟨d, rest, hoffers, hrefines⟩, -⟩ := madeFrom_of_settled hsettled
  obtain ⟨d', rest', hoffers', hfinal⟩ := exists_kept_iff.mp ⟨owner, m, hsettled⟩
  rw [hoffers] at hoffers'
  obtain ⟨rfl, -⟩ := List.cons_eq_cons.mp hoffers'
  have hd : d ∈ offers L T m.key := hoffers ▸ List.mem_cons_self
  obtain ⟨D, -, hd⟩ := List.mem_flatMap.mp (List.mem_of_mem_filter hd)
  have hstatic : d.member.isStatic = false := (mem_declarations_iff.mp hd).2.2.1
  rw [hrefines.same, Member.isImplementable]
  simp [hstatic, hfinal]

/-- The flattened type passes the checks of types. -/
theorem checkType_flattened (hL : L.validate = .ok ()) (hT : T ∈ L.types)
    (hms : ∀ m, m ∈ ms ↔ ∃ owner, settled L (offers L T m.key) = some (.kept owner m))
    (hkeys : (ms.map Member.key).Nodup) : checkType (flattened T ms) = .ok () := by
  obtain ⟨hname, -, -⟩ := checkType_eq_ok_iff.mp ((validate_eq_ok_iff.mp hL).1 T hT)
  refine checkType_eq_ok_iff.mpr ⟨hname, rfl, ?_⟩
  refine checkMembers_eq_ok_iff.mpr ⟨?_, fresh_nil_iff.mpr hkeys⟩
  intro m hm
  exact checkMember_iff_admitted.mpr (admittedMember_of_mem hT hms hm hL)

/-- **A type can be flattened.** A declared type of a valid library that can be implemented may be
replaced by one of the same name and kind that declares what its stub provides and inherits nothing:
the library stays valid, and the stub has the same members and the same source. -/
theorem flattened_provides_same (hL : L.validate = .ok ()) (hT : T ∈ L.types)
    (hcheck : checkTarget T = .ok ()) :
    ∃ ms, members L T = .ok ms ∧
      (L.replace (flattened T ms)).validate = .ok () ∧
      (L.replace (flattened T ms)).get? T.name = some (flattened T ms) ∧
      members (L.replace (flattened T ms)) (flattened T ms) = .ok ms ∧
      ∀ indent, render (L.replace (flattened T ms)) indent (flattened T ms)
        = render L indent T := by
  obtain ⟨ms, hmembers, hkeys, hms⟩ := members_spec (L := L) hcheck
  have hsame : members (L.replace (flattened T ms)) (flattened T ms) = .ok ms :=
    members_of_no_supertypes hcheck rfl hkeys fun m => isImplementable_of_mem hms
  have hname : T.name ∈ L.names := List.mem_map_of_mem hT
  have hdeclared : flattened T ms ∈ (L.replace (flattened T ms)).types :=
    mem_types_replace.mpr (.inl ⟨rfl, hname⟩)
  refine ⟨ms, hmembers, ?_, get?_name hdeclared, hsame, fun indent => ?_⟩
  · exact validate_replace hL (checkType_flattened hL hT hms hkeys) rfl
  · rw [render, render, hmembers, hsame]
    rfl

theorem flattened_provides_same_streams :
    streams.validate = .ok () ∧ streamsBoth ∈ streams.types ∧ checkTarget streamsBoth = .ok () ∧
      ∃ ms, members streams streamsBoth = .ok ms ∧
        (streams.replace (flattened streamsBoth ms)).validate = .ok () ∧
        (streams.replace (flattened streamsBoth ms)).get? streamsBoth.name
          = some (flattened streamsBoth ms) ∧
        members (streams.replace (flattened streamsBoth ms)) (flattened streamsBoth ms)
          = .ok ms ∧
        ∀ indent, render (streams.replace (flattened streamsBoth ms)) indent
            (flattened streamsBoth ms)
          = render streams indent streamsBoth := by
  have hL : streams.validate = .ok () := by decide +kernel
  have hT : streamsBoth ∈ streams.types := by decide
  have hcheck : checkTarget streamsBoth = .ok () := by decide
  exact ⟨hL, hT, hcheck, flattened_provides_same hL hT hcheck⟩

end Stub
end Stubwright

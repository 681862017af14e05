import Stubwright.Proofs.Validation
import Stubwright.Stub.Inheritance

/-!
# The declarations a target meets

    target ──lineage──▶ types in the order met ──offered──▶ declarations ──of one key──▶ offers

* `mem_lineage_iff` — the lineage of a target has exactly the types the target reaches. It takes that
  the library knows no other type under the target's name (`NoNamesake`); the target itself may be
  declared or not.
* `mem_offers_iff` — the offers of a key are exactly its declarations in these types.
* `owners_sublist` — in a valid library they come from distinct types, in the order of the lineage.
-/

namespace Stubwright.Stub

open Java

variable {L : Library} {T : Descriptor}

/-- Selecting some items and reading off a label keeps the labels in order. -/
theorem map_filterMap_sublist {α β γ : Type} {f : α → Option β} {g : β → γ} {label : α → γ}
    {items : List α} (h : ∀ a ∈ items, ∀ b, f a = some b → g b = label a) :
    ((items.filterMap f).map g).Sublist (items.map label) := by
  induction items with
  | nil => exact .slnil
  | cons a items ih =>
    have ih := ih fun a ha => h a (List.mem_cons_of_mem _ ha)
    cases hf : f a with
    | none =>
      rw [List.filterMap_cons_none hf, List.map_cons]
      exact ih.cons _
    | some b =>
      rw [List.filterMap_cons_some hf, List.map_cons, List.map_cons,
        h a List.mem_cons_self b hf]
      exact ih.cons_cons _

/-! ## Which types -/

/-- The library knows no other type under the target's name. -/
def NoNamesake (L : Library) (T : Descriptor) : Prop := ∀ d ∈ L.types, d.name = T.name → d = T

theorem noNamesake_of_mem (hT : T ∈ L.types) : NoNamesake L T :=
  fun _ hd hname => Library.eq_of_name hd hT hname

theorem noNamesake_of_not_mem (hT : T.name ∉ L.names) : NoNamesake L T :=
  fun _ hd hname => absurd (hname ▸ List.mem_map_of_mem hd) hT

theorem name_of_known {name : String} {D : Descriptor} (h : known L T name = some D) :
    D.name = name := by
  unfold known at h
  split at h
  · next hname =>
    cases h
    exact hname.symm
  · exact (Library.get?_eq_some_iff.mp h).2

theorem known_of_get? (hT : NoNamesake L T) {name : String} {D : Descriptor}
    (h : L.get? name = some D) : known L T name = some D := by
  obtain ⟨hD, rfl⟩ := Library.get?_eq_some_iff.mp h
  unfold known
  split
  · next hname => rw [hT D hD hname]
  · exact h

theorem knownSupertypes_leaf {name : String} (h : name ∉ T.name :: L.names) :
    knownSupertypes L T name = [] := by
  have hself : name ≠ T.name := fun he => h (he ▸ List.mem_cons_self)
  unfold knownSupertypes
  split
  · next D hD =>
    rw [known, if_neg hself] at hD
    obtain ⟨hmem, rfl⟩ := Library.get?_eq_some_iff.mp hD
    exact absurd (List.mem_cons_of_mem _ (List.mem_map_of_mem hmem)) h
  · rfl

/-- The lineage collects the types known under the names that the walk visits. -/
theorem mem_lineage_iff_walk {D : Descriptor} :
    D ∈ lineage L T ↔
      Relation.ReflTransGen (Graph.Edge (knownSupertypes L T)) T.name D.name ∧
        known L T D.name = some D := by
  unfold lineage
  rw [List.mem_filterMap]
  constructor
  · rintro ⟨name, hwalk, hknown⟩
    obtain rfl := name_of_known hknown
    exact ⟨(Graph.mem_preorder_iff fun _ => knownSupertypes_leaf).mp hwalk, hknown⟩
  · rintro ⟨hwalk, hknown⟩
    exact ⟨D.name, (Graph.mem_preorder_iff fun _ => knownSupertypes_leaf).mpr hwalk, hknown⟩

theorem reaches_of_walk {name : String} {D : Descriptor}
    (h : Relation.ReflTransGen (Graph.Edge (knownSupertypes L T)) T.name name)
    (hknown : known L T name = some D) : L.Reaches T D := by
  induction h generalizing D with
  | refl =>
    rw [known, if_pos rfl] at hknown
    cases hknown
    exact .self
  | @tail a b _ hab ih =>
    have hab : b ∈ knownSupertypes L T a := hab
    unfold knownSupertypes at hab
    split at hab
    · next A hA =>
      -- a step back to the target's own name ends at the target, not at what the library declares
      unfold known at hknown
      split at hknown
      · cases hknown
        exact .self
      · exact (ih hA).next hab hknown
    · cases hab

/-- **The lineage of a target consists of the types the target reaches.** -/
theorem mem_lineage_iff (hT : NoNamesake L T) {D : Descriptor} :
    D ∈ lineage L T ↔ L.Reaches T D := by
  rw [mem_lineage_iff_walk]
  constructor
  · rintro ⟨hwalk, hknown⟩
    exact reaches_of_walk hwalk hknown
  · intro h
    induction h with
    | self => exact ⟨.refl, by rw [known, if_pos rfl]⟩
    | @next D E s _ hs hget ih =>
      obtain ⟨hwalk, hknown⟩ := ih
      obtain ⟨-, rfl⟩ := Library.get?_eq_some_iff.mp hget
      refine ⟨hwalk.tail ?_, known_of_get? hT hget⟩
      show E.name ∈ knownSupertypes L T D.name
      rw [knownSupertypes, hknown]
      exact hs

/-- No type comes twice. -/
theorem nodup_lineage_names : ((lineage L T).map (·.name)).Nodup := by
  have hsub : ((lineage L T).map (·.name)).Sublist
      ((Graph.preorder (knownSupertypes L T) (T.name :: L.names) T.name).map id) :=
    map_filterMap_sublist fun _ _ _ => name_of_known
  rw [List.map_id] at hsub
  exact hsub.nodup (Graph.nodup_preorder _)

/-! ## Which declarations -/

/-- The type declares a member of this key, other than a static one. -/
def Declares (D : Descriptor) (k : MemberKey) (m : Member) : Prop :=
  m ∈ D.members ∧ m.isStatic = false ∧ m.key = k

theorem mem_declarations_iff {D : Descriptor} {d : Declaration} :
    d ∈ declarations D ↔ d.owner = D.name ∧ Declares D d.member.key d.member := by
  unfold declarations Declares
  rw [List.mem_map]
  constructor
  · rintro ⟨m, hm, rfl⟩
    simpa using hm
  · rintro ⟨howner, hmem, hstatic, -⟩
    refine ⟨d.member, by simp [hmem, hstatic], ?_⟩
    rw [← howner]

/-- The declarations of one key that the target meets, in order. -/
def offers (L : Library) (T : Descriptor) (k : MemberKey) : List Declaration :=
  (offered L T).filter (·.member.key = k)

theorem key_of_mem_offers {k : MemberKey} : ∀ d ∈ offers L T k, d.member.key = k :=
  fun _ hd => of_decide_eq_true (List.mem_filter.mp hd).2

/-- **The offers of a key are its declarations in the types the target reaches.** -/
theorem mem_offers_iff (hT : NoNamesake L T) {k : MemberKey} {d : Declaration} :
    d ∈ offers L T k ↔ ∃ D, L.Reaches T D ∧ d.owner = D.name ∧ Declares D k d.member := by
  unfold offers offered
  rw [List.mem_filter, List.mem_flatMap, decide_eq_true_iff]
  constructor
  · rintro ⟨⟨D, hD, hd⟩, rfl⟩
    exact ⟨D, (mem_lineage_iff hT).mp hD, mem_declarations_iff.mp hd⟩
  · rintro ⟨D, hD, howner, hdecl⟩
    obtain rfl := hdecl.2.2
    exact ⟨⟨D, (mem_lineage_iff hT).mpr hD, mem_declarations_iff.mpr ⟨howner, hdecl⟩⟩, rfl⟩

theorem mem_offers_of_declares (hT : NoNamesake L T) {k : MemberKey} {D : Descriptor} {m : Member}
    (hD : L.Reaches T D) (hm : Declares D k m) : (⟨D.name, m⟩ : Declaration) ∈ offers L T k :=
  (mem_offers_iff hT).mpr ⟨D, hD, rfl, hm⟩

/-- A type with distinct keys declares a key at most once. -/
theorem owners_of_type {D : Descriptor} (hkeys : (D.members.map Member.key).Nodup)
    (k : MemberKey) :
    (((declarations D).filter (·.member.key = k)).map (·.owner)).Sublist [D.name] := by
  have hconst : ((declarations D).filter (·.member.key = k)).map (·.owner)
      = List.replicate ((declarations D).filter (·.member.key = k)).length D.name := by
    refine List.eq_replicate_iff.mpr ⟨List.length_map _, fun owner h => ?_⟩
    obtain ⟨d, hd, rfl⟩ := List.mem_map.mp h
    exact (mem_declarations_iff.mp (List.mem_of_mem_filter hd)).1
  -- the number of offers is the number of times the key is counted among the keys of the members
  have hone : ((declarations D).filter (·.member.key = k)).length ≤ 1 := by
    have hsub : ((declarations D).map (·.member.key)).Sublist (D.members.map Member.key) := by
      unfold declarations
      rw [List.map_map]
      exact List.filter_sublist.map _
    have hcount := List.nodup_iff_count_le_one.mp (hsub.nodup hkeys) k
    rw [List.count, List.countP_map, List.countP_eq_length_filter] at hcount
    exact hcount
  rw [hconst]
  exact (List.replicate_sublist_replicate (n := 1) D.name).mpr hone

/-- **The offers of a key come from distinct types, in the order of the lineage.** -/
theorem owners_sublist (hL : L.validate = .ok ()) (hT : T ∈ L.types) (k : MemberKey) :
    ((offers L T k).map (·.owner)).Sublist ((lineage L T).map (·.name)) := by
  have hkeys : ∀ D ∈ lineage L T, (D.members.map Member.key).Nodup := fun D hD =>
    Library.nodup_keys_of_validate hL
      (((mem_lineage_iff (noNamesake_of_mem hT)).mp hD).mem_types hT)
  unfold offers offered
  generalize lineage L T = types at hkeys
  induction types with
  | nil => exact .slnil
  | cons D types ih =>
    rw [List.flatMap_cons, List.filter_append, List.map_append, List.map_cons]
    have hD := owners_of_type (hkeys D List.mem_cons_self) k
    exact hD.append (ih fun E hE => hkeys E (List.mem_cons_of_mem _ hE))

theorem nodup_owners (hL : L.validate = .ok ()) (hT : T ∈ L.types) (k : MemberKey) :
    ((offers L T k).map (·.owner)).Nodup :=
  (owners_sublist hL hT k).nodup nodup_lineage_names

end Stubwright.Stub

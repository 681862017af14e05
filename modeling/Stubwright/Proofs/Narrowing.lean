import Stubwright.Proofs.ReturnTypes
import Stubwright.Proofs.Slots

/-!
# Narrowing does not come back

    offers ──settled──▶ kept with a return type ──more offers──▶ kept with this one or a narrower one

While the declarations of a key are met one by one, its return type is replaced again and again, each
time by a more specific one. One meeting is `narrowed_meet`, a run of them `returnsAfter_append`. Main
statement (`isMoreSpecific_strictOrder`): in a valid library whose root class lists no supertypes,
being more specific is a strict order on all types, so that a return type which was replaced is never
kept again.
-/

namespace Stubwright.Stub

open Java

variable {L : Library}

/-! ## One meeting -/

/-- A return type is what it was before, or more specific. -/
def Narrowed (L : Library) (before now : JavaType) : Prop :=
  now = before ∨ isMoreSpecific L now before = true

theorem Narrowed.trans (hL : L.validate = .ok ()) (hroot : RootOnTop L) {first before now : JavaType}
    (h : Narrowed L first before) (h' : Narrowed L before now) : Narrowed L first now := by
  rcases h' with rfl | hnow
  · exact h
  · rcases h with rfl | hbefore
    · exact .inr hnow
    · exact .inr (isMoreSpecific_trans hL hroot hnow hbefore)

theorem isMoreSpecific_asymm (hL : L.validate = .ok ()) (hroot : RootOnTop L) {s t : JavaType}
    (h : isMoreSpecific L s t = true) : isMoreSpecific L t s = false := by
  rw [Bool.eq_false_iff]
  intro hback
  have hself : isMoreSpecific L s s = true := isMoreSpecific_trans hL hroot h hback
  rw [isMoreSpecific_irrefl] at hself
  cases hself

/-- Two types are not narrowed to each other. -/
theorem Narrowed.antisymm (hL : L.validate = .ok ()) (hroot : RootOnTop L) {before now : JavaType}
    (h : Narrowed L before now) (h' : Narrowed L now before) : now = before := by
  rcases h with heq | hnow
  · exact heq
  · rcases h' with heq | hback
    · exact heq.symm
    · rw [isMoreSpecific_asymm hL hroot hnow] at hback
      cases hback

/-- **A meeting keeps a key kept**, and narrows its return type if it changes it. -/
theorem narrowed_meet (owner : String) (m : Member) (d : Declaration) :
    ∃ owner' m', (Standing.kept owner m).meet L d = .kept owner' m' ∧
      Narrowed L m.returns m'.returns := by
  rcases meet_cases owner m d with ⟨-, hmeet⟩ | ⟨-, hmore, hmeet⟩ | ⟨-, -, hmeet⟩
  · exact ⟨_, _, hmeet, .inl rfl⟩
  · exact ⟨_, _, hmeet, .inr hmore⟩
  · exact ⟨_, _, hmeet, .inl rfl⟩

/-! ## A run of meetings -/

/-- The return type that is kept after some offers. -/
def returnsAfter (L : Library) (ds : List Declaration) : Option JavaType :=
  match settled L ds with
  | some (.kept _ m) => some m.returns
  | _ => none

theorem returnsAfter_eq_some_iff {ds : List Declaration} {t : JavaType} :
    returnsAfter L ds = some t ↔
      ∃ owner m, settled L ds = some (.kept owner m) ∧ m.returns = t := by
  unfold returnsAfter
  split
  · next owner m h => simp [h]
  · next h =>
    refine ⟨nofun, fun hkept => ?_⟩
    obtain ⟨owner, m, hsettled, -⟩ := hkept
    exact absurd hsettled (h owner m)

/-- A key that is kept stays kept, one offer later. -/
theorem returnsAfter_concat {ds : List Declaration} {before : JavaType}
    (h : returnsAfter L ds = some before) (d : Declaration) :
    ∃ now, returnsAfter L (ds ++ [d]) = some now ∧ Narrowed L before now := by
  obtain ⟨owner, m, hsettled, rfl⟩ := returnsAfter_eq_some_iff.mp h
  obtain ⟨owner', m', hmeet, hnarrowed⟩ := narrowed_meet (L := L) owner m d
  refine ⟨m'.returns, returnsAfter_eq_some_iff.mpr ⟨owner', m', ?_, rfl⟩, hnarrowed⟩
  rw [settled_append, hsettled, take, hmeet]

/-- **However many offers follow, a return type is narrowed if it changes.** -/
theorem returnsAfter_append (hL : L.validate = .ok ()) (hroot : RootOnTop L)
    {ds : List Declaration} {before : JavaType} (h : returnsAfter L ds = some before)
    (more : List Declaration) :
    ∃ now, returnsAfter L (ds ++ more) = some now ∧ Narrowed L before now := by
  induction more using List.reverseRecOn with
  | nil => exact ⟨before, by rw [List.append_nil, h], .inl rfl⟩
  | append_singleton more d ih =>
    obtain ⟨between, hbetween, hfirst⟩ := ih
    obtain ⟨now, hnow, hlast⟩ := returnsAfter_concat hbetween d
    exact ⟨now, by rw [← List.append_assoc, hnow], hfirst.trans hL hroot hlast⟩

/-! ## The order -/

/-- **Being more specific is a strict order**, and so a return type that was replaced is not kept
again, whatever offers follow. -/
theorem isMoreSpecific_strictOrder (hL : L.validate = .ok ()) (hroot : RootOnTop L) :
    (∀ t, isMoreSpecific L t t = false) ∧
    (∀ s t, isMoreSpecific L s t = true → isMoreSpecific L t s = false) ∧
    (∀ r s t, isMoreSpecific L r s = true → isMoreSpecific L s t = true →
      isMoreSpecific L r t = true) ∧
    ∀ ds more later s t, returnsAfter L ds = some s → returnsAfter L (ds ++ more) = some t → t ≠ s →
      ∃ u, returnsAfter L (ds ++ more ++ later) = some u ∧ u ≠ s := by
  refine ⟨isMoreSpecific_irrefl, fun s t => isMoreSpecific_asymm hL hroot,
    fun r s t => isMoreSpecific_trans hL hroot, ?_⟩
  intro ds more later s t hs ht hne
  obtain ⟨t', ht', hreplaced⟩ := returnsAfter_append hL hroot hs more
  obtain rfl : t' = t := Option.some.inj (ht'.symm.trans ht)
  obtain ⟨u, hu, hlater⟩ := returnsAfter_append hL hroot ht later
  refine ⟨u, hu, ?_⟩
  rintro rfl
  exact hne (hreplaced.antisymm hL hroot hlater)

/-! ### Nodes and leaves -/

/-- A chain of three types below the root class, which is declared. -/
def tree : Library := ⟨[
  { name := "java.lang.Object", kind := .classType },
  { name := "a.Node", supertypes := ["java.lang.Object"] },
  { name := "a.Inner", supertypes := ["a.Node", "b.Unknown"] },
  { name := "a.Leaf", kind := .classType, supertypes := ["a.Inner"] }], by decide⟩

/-- A declaration of one key with a return type of its own. -/
def nextNode (owner : String) (returns : JavaType) : Declaration :=
  ⟨owner, { name := "next", returns }⟩

theorem isMoreSpecific_strictOrder_tree :
    tree.validate = .ok () ∧ RootOnTop tree ∧
      isMoreSpecific tree (.array (.reference "a.Leaf")) (.array (.reference "a.Node")) = true ∧
      ∃ u, returnsAfter tree ([nextNode "b.A" (.reference "a.Node")] ++
          [nextNode "b.B" (.reference "a.Leaf")] ++ [nextNode "b.C" (.reference "a.Node")])
        = some u ∧ u ≠ .reference "a.Node" := by
  have hL : tree.validate = .ok () := by decide +kernel
  have hroot : RootOnTop tree := by unfold RootOnTop; decide
  obtain ⟨-, -, htrans, hkept⟩ := isMoreSpecific_strictOrder hL hroot
  refine ⟨hL, hroot, ?_, ?_⟩
  · exact htrans _ (.array (.reference "a.Inner")) _ (by decide +kernel) (by decide +kernel)
  · exact hkept _ _ _ _ (.reference "a.Leaf") (by decide +kernel) (by decide +kernel) (by decide)

end Stubwright.Stub

import Stubwright.Proofs.FileWrites

/-!
# Scratch directories

    tree ──makeScratch──▶ tree with one directory ──…──▶ ──removeTree──▶ nothing there

A scratch directory stands where nothing stood before (`Made`). Removing it, all at once or entry by
entry up to some point, leaves alone what is outside of it, and once it is removed nothing is left
there (`removeTree_cases`).
-/

namespace Stubwright.Host

open FileTree Trial

variable {base place : Place} {scratch p : Path} {before t : FileTree}

/-! ## Making -/

/-- A directory is found by the path, where nothing stood before, and nothing else is different. -/
structure Made (base : Place) (scratch : Path) (before t : FileTree) : Prop where
  fresh : before.get? (placeOf base scratch) = none
  found : t.find base scratch = .ok (placeOf base scratch, .directory)
  elsewhere : ∀ x, x ≠ placeOf base scratch → t.get? x = before.get? x

theorem made_of_makeDirectory (h : before.makeDirectory base p = .ok t) : Made base p before t := by
  have hfound := find_of_makeDirectory h
  obtain ⟨s, name, hleads, hnone, rfl⟩ := makeDirectory_eq_ok h
  refine ⟨hnone, hfound, fun x hx => ?_⟩
  rw [get?_set hleads.placeOf_ne_nil, if_neg hx]

namespace Made

/-- The root stands in every tree. -/
theorem ne_nil (h : Made base scratch before t) : placeOf base scratch ≠ [] := by
  intro hnil
  have hfresh := h.fresh
  rw [hnil] at hfresh
  cases hfresh

/-- Nothing outside of the scratch directory is different. -/
theorem outside (h : Made base scratch before t) {x : Place} (hx : ¬ placeOf base scratch <+: x) :
    t.get? x = before.get? x :=
  h.elsewhere x fun heq => hx (heq ▸ List.prefix_rfl)

end Made

theorem makeScratch_cases (trial : Trial) (parent : Path) :
    (∃ e after, Trial.host.makeScratch parent trial = (.error e, after) ∧ Goes trial [] after) ∨
    ∃ scratch t after, Trial.host.makeScratch parent trial = (.ok scratch, after) ∧
      Goes trial [t] after ∧ Made trial.memory.base scratch trial.memory.tree t := by
  rcases createFresh_cases trial scratchStem parent FileTree.makeDirectory with
    hfail | ⟨draw, t, after, -, hrun, hgoes, hmade⟩
  · exact .inl hfail
  · exact .inr ⟨_, t, after, hrun, hgoes, made_of_makeDirectory hmade⟩

/-! ## Removing -/

/-- Entries below a place are removed without a change outside. -/
theorem get?_unlinked (hplace : place ≠ []) (count : Nat) {x : Place} (hx : ¬ place <+: x) :
    (unlinked t place count).get? x = t.get? x := by
  unfold unlinked
  generalize (t.below place).reverse.take count = entries
  induction entries generalizing t with
  | nil => rfl
  | cons entry entries ih =>
    have hne : place ++ entry.1 ≠ [] := fun h => hplace (List.append_eq_nil_iff.mp h).1
    have helsewhere : x ≠ place ++ entry.1 := fun heq => hx (heq ▸ List.prefix_append _ _)
    rw [List.foldl_cons, ih, get?_erase hne, if_neg helsewhere]

theorem get?_eraseBelow_outside (hplace : place ≠ []) {x : Place} (hx : ¬ place <+: x) :
    (t.eraseBelow place).get? x = t.get? x := by
  rw [get?_eraseBelow hplace, if_neg fun h => hx (List.isPrefixOf_iff_prefix.mp h)]

/-- What a removal of any kind passes through. -/
theorem removeTree_trees (turn : Turn) (memory : Memory) (hne : placeOf memory.base p ≠ []) :
    (∀ t ∈ (Trial.removeTree p turn memory).2, ∀ x, ¬ placeOf memory.base p <+: x →
      t.get? x = memory.tree.get? x) ∧
    ((Trial.removeTree p turn memory).1 = .ok () → ∃ trees,
      (Trial.removeTree p turn memory).2
        = trees ++ [memory.tree.eraseBelow (placeOf memory.base p)]) := by
  have hunlinked : ∀ count, ∀ t ∈ (List.range count).map
      (unlinked memory.tree (placeOf memory.base p)), ∀ x, ¬ placeOf memory.base p <+: x →
        t.get? x = memory.tree.get? x := by
    intro count t ht x hx
    obtain ⟨n, -, rfl⟩ := List.mem_map.mp ht
    exact get?_unlinked hne n hx
  unfold Trial.removeTree
  cases turn with
  | refused e => exact ⟨List.forall_mem_nil _, nofun⟩
  | works draw =>
    dsimp only
    split
    · next place hfind =>
      obtain rfl := (placeOf_of_find hfind).1
      refine ⟨List.forall_mem_append.mpr ⟨hunlinked _, List.forall_mem_singleton.mpr ?_⟩,
        fun _ => ⟨_, rfl⟩⟩
      exact fun x hx => get?_eraseBelow_outside hne hx
    · exact ⟨List.forall_mem_nil _, nofun⟩
    · exact ⟨List.forall_mem_nil _, nofun⟩
  | broken reached e =>
    dsimp only
    split
    · next place hfind =>
      obtain rfl := (placeOf_of_find hfind).1
      exact ⟨hunlinked _, nofun⟩
    · exact ⟨List.forall_mem_nil _, nofun⟩
    · exact ⟨List.forall_mem_nil _, nofun⟩

/-- What removing a directory does: nothing outside of it is different, and if it works, nothing is
left there. -/
structure Removes (p : Path) (trial : Trial) (answer : Except IoError Unit) (after : Trial) :
    Prop where
  base : after.memory.base = trial.memory.base
  outside : ∀ x, ¬ placeOf trial.memory.base p <+: x →
    after.memory.tree.get? x = trial.memory.tree.get? x
  gone : answer = .ok () → ∀ x, placeOf trial.memory.base p <+: x →
    after.memory.tree.get? x = none

/-- **A directory is removed, at least in part, and nothing else.** -/
theorem removeTree_cases (trial : Trial) (hne : placeOf trial.memory.base p ≠ []) :
    ∃ answer after, Trial.host.removeTree p trial = (answer, after) ∧
      Removes p trial answer after := by
  obtain ⟨after, hrun, hgoes⟩ := perform_goes trial (Trial.removeTree p)
  obtain ⟨htrees, hgone⟩ :=
    removeTree_trees (trial.turns.headD (.works 0)) trial.memory hne
  refine ⟨_, after, hrun, hgoes.base, ?_, fun hanswer x hx => ?_⟩
  · exact hgoes.last (fun _ _ => rfl) htrees
  · obtain ⟨trees, heq⟩ := hgone hanswer
    rw [hgoes.tree, heq, List.getLastD_concat, get?_eraseBelow hne,
      if_pos (List.isPrefixOf_iff_prefix.mpr hx)]

/-- A removal that nothing befalls succeeds, as long as there is a directory. -/
theorem removeTree_works {trial : Trial} {draw : Nat} (h : trial.Works draw)
    (hfound : trial.memory.tree.find trial.memory.base p = .ok (place, .directory)) :
    (Trial.host.removeTree p trial).1 = .ok () := by
  obtain ⟨after, hrun, -⟩ := perform_goes trial (Trial.removeTree p)
  have hhost : Trial.host.removeTree p trial = _ := hrun
  rw [hhost, h, Trial.removeTree, hfound]

end Stubwright.Host

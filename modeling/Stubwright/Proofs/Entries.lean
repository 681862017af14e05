import Stubwright.Proofs.Joins

/-!
# Entries of a file tree

    tree ──operation──▶ tree with one entry more, less or other

Each operation that succeeds changes what stands at the place its path leads to, and nothing else.
Operations that put something there also need directories on the way, so that it is found by the path
afterwards.

Two states recur when files are written. A tree has `Grown` if only directories were added to it, at
some of certain places. A file is `Staged` if it stands where nothing stood before, by a name that no
one asks for, and all else is as it was: as long as it is staged it may be filled, dropped, or put
into its place.
-/

namespace Stubwright.Host.FileTree

open Library (bind_eq_ok)

variable {t t' before : FileTree} {base place : Place} {p q : Path} {s : Slot} {name : String}

/-! ## What operations do -/

theorem makeDirectory_eq_ok (h : t.makeDirectory base p = .ok t') :
    ∃ s name, Leads t base p s name ∧ t.get? (placeOf base p) = none ∧
      t' = t.set (placeOf base p) .directory := by
  unfold makeDirectory at h
  obtain ⟨s, hslot, h⟩ := bind_eq_ok.mp h
  split at h
  · cases h
  · next name hname =>
    have hleads : Leads t base p s name := leads_of_slot hslot hname
    dsimp only at h
    rw [← hleads.placeOf_eq] at h
    split at h
    · cases h
    · next hnone =>
      cases h
      exact ⟨s, name, hleads, by simpa using hnone, rfl⟩

theorem createFile_eq_ok (h : t.createFile base p = .ok t') :
    ∃ s name, Leads t base p s name ∧ s.slashed = false ∧ t.get? (placeOf base p) = none ∧
      t' = t.set (placeOf base p) (.file [] false) := by
  unfold createFile at h
  obtain ⟨s, hslot, h⟩ := bind_eq_ok.mp h
  split at h
  · cases h
  · next name hname =>
    have hleads : Leads t base p s name := leads_of_slot hslot hname
    dsimp only at h
    rw [← hleads.placeOf_eq] at h
    split at h
    · cases h
    · next hslashed =>
      split at h
      · cases h
      · next hnone =>
        cases h
        exact ⟨s, name, hleads, by simpa using hslashed, by simpa using hnone, rfl⟩

theorem writeFile_eq_ok {content : Bytes} {executable : Bool}
    (h : t.writeFile base p content executable = .ok t') :
    ∃ s name, Leads t base p s name ∧ t' = t.set (placeOf base p) (.file content executable) := by
  unfold writeFile at h
  obtain ⟨s, hslot, h⟩ := bind_eq_ok.mp h
  split at h
  · cases h
  · next name hname =>
    have hleads : Leads t base p s name := leads_of_slot hslot hname
    dsimp only at h
    rw [← hleads.placeOf_eq] at h
    split at h
    · cases h
    · split at h
      · cases h
      · cases h
        exact ⟨s, name, hleads, rfl⟩

theorem append_eq {content : Bytes} {executable : Bool}
    (h : t.find base p = .ok (place, .file content executable)) (more : Bytes) :
    t.append base p more = .ok (t.set place (.file (content ++ more) executable)) := by
  rw [append, h]
  rfl

theorem removeFile_eq {content : Bytes} {executable : Bool}
    (h : t.find base p = .ok (place, .file content executable)) :
    t.removeFile base p = .ok (t.erase place) := by
  rw [removeFile, h]
  rfl

theorem rename_eq_ok {node : Node} (hfind : t.find base q = .ok (place, node))
    (h : t.rename base q p = .ok t') :
    ∃ s name, Leads t base p s name ∧ s.slashed = false ∧
      t.get? (placeOf base p) ≠ some .directory ∧
      t' = (t.erase place).set (placeOf base p) node := by
  unfold rename at h
  split at h
  · cases h
  · rw [hfind] at h
    obtain ⟨⟨place', node'⟩, hfound, h⟩ := bind_eq_ok.mp h
    cases hfound
    obtain ⟨s, hslot, h⟩ := bind_eq_ok.mp h
    split at h
    · cases h
    · next name hname =>
      have hleads : Leads t base p s name := leads_of_slot hslot hname
      dsimp only at h
      rw [← hleads.placeOf_eq] at h
      split at h
      · cases h
      · next hslashed =>
        split at h
        · cases h
        · next hdirectory =>
          cases h
          exact ⟨s, name, hleads, by simpa using hslashed, by simpa using hdirectory, rfl⟩

/-! ## Places of entries -/

theorem Leads.placeOf_ne_nil (h : Leads t base p s name) : placeOf base p ≠ [] := by
  rw [h.placeOf_eq]
  exact List.concat_ne_nil _ _

/-- Nothing but a directory stands at the root. -/
theorem ne_nil_of_get? {node : Node} (h : t.get? place = some node) (hnode : node ≠ .directory) :
    place ≠ [] := by
  rintro rfl
  exact hnode (Option.some.inj h).symm

/-- A change at a place where no directory stands keeps the directories. -/
theorem keepsDirectories_of_elsewhere (hplace : t.get? place ≠ some .directory)
    (h : ∀ x, x ≠ place → t'.get? x = t.get? x) : KeepsDirectories t t' := by
  intro x hx
  rw [h x fun heq => hplace (heq ▸ hx)]
  exact hx

/-! ## Added directories -/

/-- Only directories were added, at some of the places. -/
def Grown (places : List Place) (t t' : FileTree) : Prop :=
  ∀ x, t'.get? x = t.get? x ∨ (t.get? x = none ∧ t'.get? x = some .directory ∧ x ∈ places)

namespace Grown

variable {places places' : List Place} {t'' : FileTree}

theorem refl (places : List Place) (t : FileTree) : Grown places t t := fun _ => .inl rfl

theorem trans (h : Grown places t t') (h' : Grown places t' t'') : Grown places t t'' := by
  intro x
  rcases h x with hx | ⟨hnone, hdirectory, hmem⟩
  · rcases h' x with hx' | ⟨hnone', hdirectory', hmem'⟩
    · exact .inl (hx'.trans hx)
    · exact .inr ⟨hx ▸ hnone', hdirectory', hmem'⟩
  · rcases h' x with hx' | ⟨hnone', -, -⟩
    · exact .inr ⟨hnone, hx'.trans hdirectory, hmem⟩
    · rw [hdirectory] at hnone'
      cases hnone'

theorem mono (h : Grown places t t') (hsub : ∀ x ∈ places, x ∈ places') : Grown places' t t' :=
  fun x => (h x).imp_right fun ⟨hnone, hdirectory, hmem⟩ => ⟨hnone, hdirectory, hsub x hmem⟩

/-- What was there is there. -/
theorem get?_eq (h : Grown places t t') {x : Place} {node : Node} (hx : t.get? x = some node) :
    t'.get? x = some node := by
  rcases h x with heq | ⟨hnone, -, -⟩
  · rw [heq, hx]
  · rw [hx] at hnone
    cases hnone

theorem keepsDirectories (h : Grown places t t') : KeepsDirectories t t' := fun _ => h.get?_eq

/-- Where directories stand already, none is added. -/
theorem get?_eq_of_directories (h : Grown places t t')
    (hdirectories : ∀ x ∈ places, t.get? x = some .directory) (x : Place) :
    t'.get? x = t.get? x := by
  rcases h x with heq | ⟨hnone, -, hmem⟩
  · exact heq
  · rw [hdirectories x hmem] at hnone
    cases hnone

end Grown

theorem grown_of_makeDirectory (h : t.makeDirectory base p = .ok t') :
    Grown (stations base p) t t' := by
  obtain ⟨s, name, hleads, hnone, rfl⟩ := makeDirectory_eq_ok h
  intro x
  rw [get?_set hleads.placeOf_ne_nil]
  by_cases hx : x = placeOf base p
  · subst hx
    rw [if_pos rfl]
    exact .inr ⟨hnone, rfl, placeOf_mem_stations base p⟩
  · rw [if_neg hx]
    exact .inl rfl

/-- A directory that was made is found. -/
theorem find_of_makeDirectory (h : t.makeDirectory base p = .ok t') :
    t'.find base p = .ok (placeOf base p, .directory) := by
  have hgrown := grown_of_makeDirectory h
  obtain ⟨s, name, hleads, hnone, rfl⟩ := makeDirectory_eq_ok h
  exact hleads.find hgrown.keepsDirectories
    (by rw [get?_set hleads.placeOf_ne_nil, if_pos rfl]) (.inr rfl)

/-! ## Staged files -/

/-- A file with this content is found by the path, and nothing else is different from before, when
nothing stood there. -/
structure Staged (base : Place) (p : Path) (content : Bytes) (before t : FileTree) : Prop where
  fresh : before.get? (placeOf base p) = none
  found : t.find base p = .ok (placeOf base p, .file content false)
  elsewhere : ∀ x, x ≠ placeOf base p → t.get? x = before.get? x

namespace Staged

variable {content : Bytes}

theorem get?_eq (h : Staged base p content before t) :
    t.get? (placeOf base p) = some (.file content false) :=
  (placeOf_of_find h.found).2

theorem ne_nil (h : Staged base p content before t) : placeOf base p ≠ [] :=
  ne_nil_of_get? h.get?_eq (by simp)

/-- Filling the file leaves it staged. -/
theorem fill (h : Staged base p content before t) (more : Bytes) :
    Staged base p (content ++ more) before
      (t.set (placeOf base p) (.file (content ++ more) false)) := by
  have hset : ∀ x, (t.set (placeOf base p) (.file (content ++ more) false)).get? x =
      if x = placeOf base p then some (.file (content ++ more) false) else t.get? x :=
    get?_set h.ne_nil
  have helsewhere : ∀ x, x ≠ placeOf base p →
      (t.set (placeOf base p) (.file (content ++ more) false)).get? x = t.get? x := by
    intro x hx
    rw [hset, if_neg hx]
  refine ⟨h.fresh, ?_, fun x hx => (helsewhere x hx).trans (h.elsewhere x hx)⟩
  have hfile : t.get? (placeOf base p) ≠ some .directory := by
    rw [h.get?_eq]
    simp
  have hkeeps := keepsDirectories_of_elsewhere hfile helsewhere
  exact find_keeps (fun x _ => hkeeps x) h.found (by rw [hset, if_pos rfl])

/-- Dropping the file leaves everything as it was. -/
theorem drop (h : Staged base p content before t) (x : Place) :
    (t.erase (placeOf base p)).get? x = before.get? x := by
  rw [get?_erase h.ne_nil]
  by_cases hx : x = placeOf base p
  · rw [if_pos hx, hx, h.fresh]
  · rw [if_neg hx, h.elsewhere x hx]

end Staged

/-- A file that was created is staged. -/
theorem staged_of_createFile (h : before.createFile base p = .ok t) : Staged base p [] before t := by
  obtain ⟨s, name, hleads, hslashed, hnone, rfl⟩ := createFile_eq_ok h
  have hset : ∀ x, (before.set (placeOf base p) (.file [] false)).get? x =
      if x = placeOf base p then some (.file [] false) else before.get? x :=
    get?_set hleads.placeOf_ne_nil
  have helsewhere : ∀ x, x ≠ placeOf base p →
      (before.set (placeOf base p) (.file [] false)).get? x = before.get? x := by
    intro x hx
    rw [hset, if_neg hx]
  refine ⟨hnone, ?_, helsewhere⟩
  have hkeeps := keepsDirectories_of_elsewhere (by simp [hnone]) helsewhere
  exact hleads.find hkeeps (by rw [hset, if_pos rfl]) (.inl hslashed)

/-- A file with this content is found by the path, and nothing else is different from before, when
no directory stood there. -/
structure Replaced (base : Place) (p : Path) (content : Bytes) (before t : FileTree) : Prop where
  nodirectory : before.get? (placeOf base p) ≠ some .directory
  found : t.find base p = .ok (placeOf base p, .file content false)
  elsewhere : ∀ x, x ≠ placeOf base p → t.get? x = before.get? x

/-- **A staged file is put into its place, and nothing else is different.** -/
theorem Staged.put {content : Bytes} (h : Staged base q content before t)
    (hrename : t.rename base q p = .ok t') : Replaced base p content before t' := by
  obtain ⟨s, name, hleads, hslashed, hnodirectory, rfl⟩ := rename_eq_ok h.found hrename
  have hset : ∀ x, ((t.erase (placeOf base q)).set (placeOf base p) (.file content false)).get? x =
      if x = placeOf base p then some (.file content false) else before.get? x := by
    intro x
    rw [get?_set hleads.placeOf_ne_nil, h.drop]
  have hplace : before.get? (placeOf base p) ≠ some .directory := by
    intro hdirectory
    by_cases heq : placeOf base p = placeOf base q
    · rw [heq, h.fresh] at hdirectory
      cases hdirectory
    · rw [← h.elsewhere _ heq] at hdirectory
      exact hnodirectory hdirectory
  refine ⟨hplace, ?_, fun x hx => by rw [hset, if_neg hx]⟩
  -- directories of the tree with the staged file are directories before and after
  have hkeeps : KeepsDirectories t
      ((t.erase (placeOf base q)).set (placeOf base p) (.file content false)) := by
    intro x hx
    have hstaged : x ≠ placeOf base q := by
      rintro rfl
      rw [h.get?_eq] at hx
      cases hx
    have hplace : x ≠ placeOf base p := by
      rintro rfl
      exact hnodirectory hx
    rw [hset, if_neg hplace, ← h.elsewhere x hstaged]
    exact hx
  exact hleads.find hkeeps (by rw [hset, if_pos rfl]) (.inl hslashed)

/-- A file with this content is found by the path, and nothing else is different from before, apart
from directories that were added at some of the places. -/
structure Placed (places : List Place) (base : Place) (p : Path) (content : Bytes)
    (before t : FileTree) : Prop where
  found : t.find base p = .ok (placeOf base p, .file content false)
  others : ∀ x, x ≠ placeOf base p → t.get? x = before.get? x ∨
    (before.get? x = none ∧ t.get? x = some .directory ∧ x ∈ places)

theorem Replaced.placed {places : List Place} {content : Bytes} {middle : FileTree}
    (h : Replaced base p content middle t) (hgrown : Grown places before middle) :
    Placed places base p content before t := by
  refine ⟨h.found, fun x hx => ?_⟩
  rw [h.elsewhere x hx]
  exact hgrown x

end Stubwright.Host.FileTree

import Mathlib.Data.List.Perm.Basic
import Stubwright.CommandLine.Run
import Stubwright.Proofs.Arrangement
import Stubwright.Proofs.Catalogs
import Stubwright.Proofs.Declarations
import Stubwright.Proofs.FileReads
import Stubwright.Proofs.Format

/-!
# Loading library files

    files ──▶ texts ──▶ type elements ──declared──▶ types ──▶ valid library

Loading stops at the first file that is no library and at the first name that is taken. Yet how it
ends can be told from all type elements of all files together: a library is loaded exactly if each of
them declares a type, no two of one name, and these types make a valid library
(`loadLibrary_eq_ok_iff`).

Main statement (`load_rearranged`): so neither the order of the files nor that of the types in them
counts. What is loaded in one order is loaded in every other, and all names have the same stubs.
-/

namespace Stubwright

open Java Host Markup

namespace Library

/-! ## Types of several documents -/

theorem declare_append_iff {es es' : List Element} {ds : List Descriptor} :
    Declare (es ++ es') ds ↔
      ∃ ds₁ ds₂, ds = ds₁ ++ ds₂ ∧ Declare es ds₁ ∧ Declare es' ds₂ := by
  unfold Declare
  induction es generalizing ds with
  | nil =>
    constructor
    · intro h
      exact ⟨[], ds, rfl, .nil, h⟩
    · rintro ⟨ds₁, ds₂, rfl, h₁, h₂⟩
      cases h₁
      exact h₂
  | cons e es ih =>
    constructor
    · intro h
      cases h with
      | cons hd hds =>
        obtain ⟨ds₁, ds₂, rfl, h₁, h₂⟩ := ih.mp hds
        exact ⟨_ :: ds₁, ds₂, rfl, .cons hd h₁, h₂⟩
    · rintro ⟨ds₁, ds₂, rfl, h₁, h₂⟩
      cases h₁ with
      | cons hd h₁ => exact .cons hd (ih.mpr ⟨_, ds₂, rfl, h₁, h₂⟩)

/-- Elements in another order declare the types in another order. -/
theorem Declare.perm {es es' : List Element} {ds : List Descriptor} (h : Declare es ds)
    (hperm : es.Perm es') : ∃ ds', Declare es' ds' ∧ ds.Perm ds' := by
  obtain ⟨ds', hds', hperm⟩ := List.perm_comp_forall₂ hperm.symm h
  exact ⟨ds', hds', hperm.symm⟩

/-- An element declares one type. -/
theorem Declare.unique {es : List Element} {ds ds' : List Descriptor} (h : Declare es ds)
    (h' : Declare es ds') : ds = ds' :=
  List.right_unique_forall₂' (fun _ _ _ hd hd' => Except.ok.inj (hd.symm.trans hd')) h h'

/-- The text is that of the one root, which is a library in the format. -/
structure TextOf (root : Element) (text : String) : Prop where
  library : IsLibraryElement root
  written : Written [root] text.toList

/-- The element of some types that says everything. -/
def plainRoot (types : List Descriptor) : Element :=
  .paired (plainTag "typeLibrary" []) (types.map plainType)

theorem textOf_plainRoot (types : List Descriptor) :
    TextOf (plainRoot types) (documentOf (plainRoot types)) where
  library := ⟨rfl, List.forall_mem_map.mpr fun d _ => (typeOf_plainType d).isTypeElement⟩
  written := by
    have hroot : (plainTag "typeLibrary" []).WellFormed :=
      wellFormed_plainTag (by decide) (by decide)
    have htypes : ∀ e ∈ types.map plainType, e.WellFormed :=
      List.forall_mem_map.mpr fun d _ => wellFormed_plainType d
    exact written_documentOf (.paired hroot htypes)

end Library

namespace CommandLine

variable {memory : Memory} {files : List (Path × String)} {roots : List Element} {c : Catalog}
  {L : Library}

/-! ## The outcome of loading -/

/-- All type elements, file by file. -/
def typeElements (roots : List Element) : List Element := roots.flatMap Element.children

theorem ofFile_memory {path : Path} {text : String} (h : Holds memory path text) :
    Library.ofFile Memory.host path memory = (Library.ofDocument text, memory) := by
  rw [Library.ofFile, bind_apply, readText_memory h]
  rfl

theorem loadFiles_cons {path : Path} {text : String} (h : Holds memory path text)
    (paths : List Path) :
    loadFiles Memory.host c (path :: paths) memory =
      match Library.ofDocument text with
      | .error e => (.error (.library path e), memory)
      | .ok loaded =>
        match c.addAll loaded.types with
        | (_, some e) => (.error (.library path e), memory)
        | (c, none) => loadFiles Memory.host c paths memory := by
  rw [loadFiles, bind_apply, ofFile_memory h]
  cases Library.ofDocument text with
  | error e => rfl
  | ok loaded =>
    dsimp only
    obtain ⟨c', refused?⟩ := c.addAll loaded.types
    cases refused? <;> rfl

/-- **The types of all files are taken in together**, or the files are refused: either an element
declares no type, or a name comes twice. -/
theorem loadFiles_cases (hc : c.Aligned) (hfiles : ∀ f ∈ files, Holds memory f.1 f.2)
    (hroots : List.Forall₂ Library.TextOf roots (files.map (·.2))) :
    (∃ c' ds, (loadFiles Memory.host c (files.map (·.1)) memory).1 = .ok c' ∧ c'.Aligned ∧
      Library.Declare (typeElements roots) ds ∧ c'.types.toList = c.types.toList ++ ds) ∨
    ((∃ e, (loadFiles Memory.host c (files.map (·.1)) memory).1 = .error e) ∧
      ∀ ds, Library.Declare (typeElements roots) ds → ¬ (c.names ++ ds.map (·.name)).Nodup) := by
  induction files generalizing c roots with
  | nil =>
    cases hroots
    exact .inl ⟨c, [], rfl, hc, .nil, (List.append_nil _).symm⟩
  | cons f files ih =>
    rw [List.forall_mem_cons] at hfiles
    cases hroots with
    | @cons root _ roots _ hroot hroots =>
      have hdocument := fun L => Library.ofDocument_eq_ok_iff (L := L) hroot.library hroot.written
      have hsplit : ∀ {ds}, Library.Declare (typeElements (root :: roots)) ds ↔
          ∃ ds₁ ds₂, ds = ds₁ ++ ds₂ ∧ Library.Declare root.children ds₁ ∧
            Library.Declare (typeElements roots) ds₂ := by
        intro ds
        rw [typeElements, List.flatMap_cons]
        exact Library.declare_append_iff
      rw [List.map_cons, loadFiles_cons hfiles.1]
      cases hloaded : Library.ofDocument f.2 with
      | error e =>
        refine .inr ⟨⟨_, rfl⟩, fun ds hds hnodup => ?_⟩
        -- types of distinct names would be a library
        obtain ⟨ds₁, ds₂, rfl, h₁, -⟩ := hsplit.mp hds
        rw [List.map_append, List.nodup_append, List.nodup_append] at hnodup
        have hread := (hdocument ⟨ds₁, hnodup.2.1.1⟩).mpr h₁
        rw [hread] at hloaded
        cases hloaded
      | ok loaded =>
        have h₁ : Library.Declare root.children loaded.types := (hdocument loaded).mp hloaded
        obtain ⟨haligned, hcases⟩ := Catalog.addAll_cases hc loaded.types
        have hiff := Catalog.addAll_eq_none_iff hc loaded.types
        dsimp only
        generalize hadd : c.addAll loaded.types = added at haligned hcases hiff
        obtain ⟨c₁, refused?⟩ := added
        cases refused? with
        | some e =>
          refine .inr ⟨⟨_, rfl⟩, fun ds hds hnodup => ?_⟩
          obtain ⟨ds₁, ds₂, rfl, h₁', -⟩ := hsplit.mp hds
          rw [h₁'.unique h₁, List.map_append, ← List.append_assoc] at hnodup
          exact absurd (hiff.mpr (List.nodup_append.mp hnodup).1) (by simp)
        | none =>
          have htypes : c₁.types.toList = c.types.toList ++ loaded.types := by
            rcases hcases with ⟨-, htypes⟩ | ⟨_, _, _, -, -, herror, -⟩
            · exact htypes
            · cases herror
          rcases ih haligned hfiles.2 hroots with
            ⟨c', ds₂, hc', haligned', h₂, htypes'⟩ | ⟨herror, hrefused⟩
          · refine .inl ⟨c', loaded.types ++ ds₂, hc', haligned', hsplit.mpr ⟨_, _, rfl, h₁, h₂⟩, ?_⟩
            rw [htypes', htypes, List.append_assoc]
          · refine .inr ⟨herror, fun ds hds hnodup => ?_⟩
            obtain ⟨ds₁, ds₂, rfl, h₁', h₂⟩ := hsplit.mp hds
            rw [h₁'.unique h₁, List.map_append, ← List.append_assoc,
              ← Catalog.names_of_types htypes] at hnodup
            exact hrefused ds₂ h₂ hnodup

/-- A library is loaded if the files can be merged and what they hold is valid. -/
theorem loadLibrary_of_loadFiles {paths : List Path} {c : Catalog}
    (h : (loadFiles Memory.host .empty paths memory).1 = .ok c) :
    (loadLibrary Memory.host paths memory).1 = .ok L ↔
      c.library.validate = .ok () ∧ c.library = L := by
  rw [loadLibrary, bind_apply, h]
  dsimp only
  cases c.library.validate with
  | error e => exact iff_of_false nofun nofun
  | ok u => exact ⟨fun hL => ⟨rfl, Except.ok.inj hL⟩, fun ⟨_, hL⟩ => congrArg Except.ok hL⟩

theorem loadLibrary_of_error {paths : List Path} {e : RunError}
    (h : (loadFiles Memory.host .empty paths memory).1 = .error e) :
    (loadLibrary Memory.host paths memory).1 = .error e := by
  rw [loadLibrary, bind_apply, h]
  rfl

/-- **A library is loaded exactly if the elements of all files declare its types** and it is
valid. -/
theorem loadLibrary_eq_ok_iff (hfiles : ∀ f ∈ files, Holds memory f.1 f.2)
    (hroots : List.Forall₂ Library.TextOf roots (files.map (·.2))) :
    (loadLibrary Memory.host (files.map (·.1)) memory).1 = .ok L ↔
      Library.Declare (typeElements roots) L.types ∧ L.validate = .ok () := by
  rcases loadFiles_cases Catalog.aligned_empty hfiles hroots with
    ⟨c, ds, hc, haligned, hds, htypes⟩ | ⟨⟨e, he⟩, hrefused⟩
  · have htypes : c.library.types = ds := haligned.types_library.trans htypes
    rw [loadLibrary_of_loadFiles hc]
    constructor
    · rintro ⟨hvalid, rfl⟩
      exact ⟨htypes ▸ hds, hvalid⟩
    · rintro ⟨hL, hvalid⟩
      obtain rfl : c.library = L := Library.eq_of_types (htypes.trans (hds.unique hL))
      exact ⟨hvalid, rfl⟩
  · rw [loadLibrary_of_error he]
    refine iff_of_false nofun ?_
    rintro ⟨hL, -⟩
    exact hrefused L.types hL L.distinct

/-! ## Rearranged files -/

/-- The second text has the same types as the first, in whatever order. -/
def Reordered (text text' : String) : Prop :=
  ∃ root root', Library.TextOf root text ∧ Library.TextOf root' text' ∧
    root.children.Perm root'.children

/-- The second texts are the first in whatever order, each with its types in whatever order. -/
def Rearranged (texts texts' : List String) : Prop :=
  ∃ between, texts.Perm between ∧ List.Forall₂ Reordered between texts'

/-- Rearranged texts have the same type elements. -/
theorem Rearranged.exists_roots {texts texts' : List String} (h : Rearranged texts texts') :
    ∃ roots roots', List.Forall₂ Library.TextOf roots texts ∧
      List.Forall₂ Library.TextOf roots' texts' ∧
      (typeElements roots).Perm (typeElements roots') := by
  obtain ⟨between, hperm, hreordered⟩ := h
  have hbetween : ∃ roots roots', List.Forall₂ Library.TextOf roots between ∧
      List.Forall₂ Library.TextOf roots' texts' ∧
      (typeElements roots).Perm (typeElements roots') := by
    clear hperm
    induction hreordered with
    | nil => exact ⟨[], [], .nil, .nil, .nil⟩
    | cons htext _ ih =>
      obtain ⟨root, root', hroot, hroot', htypes⟩ := htext
      obtain ⟨roots, roots', hroots, hroots', hrest⟩ := ih
      exact ⟨root :: roots, root' :: roots', .cons hroot hroots, .cons hroot' hroots',
        htypes.append hrest⟩
  obtain ⟨rootsBetween, roots', hrootsBetween, hroots', htypes⟩ := hbetween
  obtain ⟨roots, hroots, hpermRoots⟩ := List.perm_comp_forall₂ hperm hrootsBetween.flip
  exact ⟨roots, roots', hroots.flip, hroots', (hpermRoots.flatMap_right _).trans htypes⟩

/-- Files with the same type elements, in whatever order, are loaded with the same types. -/
theorem loadLibrary_of_perm {memory' : Memory} {files' : List (Path × String)}
    {roots' : List Element} (hfiles : ∀ f ∈ files, Holds memory f.1 f.2)
    (hfiles' : ∀ f ∈ files', Holds memory' f.1 f.2)
    (hroots : List.Forall₂ Library.TextOf roots (files.map (·.2)))
    (hroots' : List.Forall₂ Library.TextOf roots' (files'.map (·.2)))
    (hperm : (typeElements roots).Perm (typeElements roots'))
    (hL : (loadLibrary Memory.host (files.map (·.1)) memory).1 = .ok L) :
    ∃ L', (loadLibrary Memory.host (files'.map (·.1)) memory').1 = .ok L' ∧ L.SameTypes L' := by
  obtain ⟨htypes, hvalid⟩ := (loadLibrary_eq_ok_iff hfiles hroots).mp hL
  obtain ⟨ds, hds, hperm⟩ := htypes.perm hperm
  have hdistinct : (ds.map (·.name)).Nodup := (hperm.map _).nodup_iff.mp L.distinct
  have hsame : L.SameTypes ⟨ds, hdistinct⟩ := fun d => hperm.mem_iff
  exact ⟨⟨ds, hdistinct⟩,
    (loadLibrary_eq_ok_iff hfiles' hroots').mpr ⟨hds, hsame.validate_iff.mp hvalid⟩, hsame⟩

/-- **Neither the order of library files nor that of the types in them counts.** Files that are
rearranged are loaded if the files were, and every name has the same stub, or the same error, with
every indentation. -/
theorem load_rearranged {memory memory' : Memory} {files files' : List (Path × String)}
    (hfiles : ∀ f ∈ files, Holds memory f.1 f.2) (hfiles' : ∀ f ∈ files', Holds memory' f.1 f.2)
    (h : Rearranged (files.map (·.2)) (files'.map (·.2))) :
    ((∃ L, (loadLibrary Memory.host (files.map (·.1)) memory).1 = .ok L) ↔
      ∃ L', (loadLibrary Memory.host (files'.map (·.1)) memory').1 = .ok L') ∧
    ∀ L L', (loadLibrary Memory.host (files.map (·.1)) memory).1 = .ok L →
      (loadLibrary Memory.host (files'.map (·.1)) memory').1 = .ok L' →
      ∀ name indent, (Stub.resolveTarget L name >>= Stub.render L indent) =
        (Stub.resolveTarget L' name >>= Stub.render L' indent) := by
  obtain ⟨roots, roots', hroots, hroots', hperm⟩ := h.exists_roots
  refine ⟨⟨?_, ?_⟩, ?_⟩
  · rintro ⟨L, hL⟩
    obtain ⟨L', hL', -⟩ := loadLibrary_of_perm hfiles hfiles' hroots hroots' hperm hL
    exact ⟨L', hL'⟩
  · rintro ⟨L', hL'⟩
    obtain ⟨L, hL, -⟩ := loadLibrary_of_perm hfiles' hfiles hroots' hroots hperm.symm hL'
    exact ⟨L, hL⟩
  · intro L L' hL hL' name indent
    obtain ⟨L₂, hL₂, hsame⟩ := loadLibrary_of_perm hfiles hfiles' hroots hroots' hperm hL
    rw [hL'] at hL₂
    obtain rfl : L' = L₂ := Except.ok.inj hL₂
    rw [Stub.resolveTarget_congr hsame]
    exact congrArg _ (funext fun T => Stub.render_congr hsame indent T)

/-! ### Two files and three types -/

def named : Descriptor where
  name := "a.Named"
  members := [{ name := "name", returns := .reference "java.lang.String" }]

def shape : Descriptor where
  name := "a.Shape"
  supertypes := ["a.Named"]

def round : Descriptor where
  name := "a.Round"
  supertypes := ["a.Shape", "a.Named"]

/-- The text of some types. -/
def textOf (types : List Descriptor) : String := documentOf (Library.plainRoot types)

/-- A machine with two files, the second of which has two types. -/
def twoFiles (types : List Descriptor) : Memory where
  tree := ⟨[(["a.xml"], .file (Text.utf8 (textOf [named])) false),
    (["b.xml"], .file (Text.utf8 (textOf types)) false)]⟩

/-- The types that the two files declare together. -/
def threeTypes : Library := ⟨[named, shape, round], by decide⟩

theorem load_rearranged_twoFiles :
    (loadLibrary Memory.host [⟨"a.xml"⟩, ⟨"b.xml"⟩] (twoFiles [shape, round])).1 = .ok threeTypes ∧
      ∃ L', (loadLibrary Memory.host [⟨"b.xml"⟩, ⟨"a.xml"⟩] (twoFiles [round, shape])).1 = .ok L' ∧
        ∀ name indent, (Stub.resolveTarget threeTypes name >>= Stub.render threeTypes indent) =
          (Stub.resolveTarget L' name >>= Stub.render L' indent) := by
  have hfiles : ∀ f ∈ [(Path.mk "a.xml", textOf [named]), (⟨"b.xml"⟩, textOf [shape, round])],
      Holds (twoFiles [shape, round]) f.1 f.2 :=
    List.forall_mem_cons.mpr ⟨rfl, List.forall_mem_singleton.mpr rfl⟩
  have hfiles' : ∀ f ∈ [(Path.mk "b.xml", textOf [round, shape]), (⟨"a.xml"⟩, textOf [named])],
      Holds (twoFiles [round, shape]) f.1 f.2 :=
    List.forall_mem_cons.mpr ⟨rfl, List.forall_mem_singleton.mpr rfl⟩
  have hplain := Library.textOf_plainRoot
  have hrearranged : Rearranged [textOf [named], textOf [shape, round]]
      [textOf [round, shape], textOf [named]] :=
    ⟨_, .swap _ _ _, .cons ⟨_, _, hplain _, hplain _, .swap _ _ _⟩
      (.cons ⟨_, _, hplain _, hplain _, .refl _⟩ .nil)⟩
  have hL : (loadLibrary Memory.host [⟨"a.xml"⟩, ⟨"b.xml"⟩] (twoFiles [shape, round])).1
      = .ok threeTypes := by
    refine (loadLibrary_eq_ok_iff hfiles (.cons (hplain _) (.cons (hplain _) .nil))).mpr ⟨?_, ?_⟩
    · exact .cons (by decide +kernel) (.cons (by decide +kernel) (.cons (by decide +kernel) .nil))
    · decide +kernel
  obtain ⟨hloads, hstubs⟩ := load_rearranged hfiles hfiles' hrearranged
  obtain ⟨L', hL'⟩ := hloads.mp ⟨threeTypes, hL⟩
  exact ⟨hL, L', hL', hstubs threeTypes L' hL hL'⟩

end CommandLine
end Stubwright

import Stubwright.Archive.Manifest
import Stubwright.Proofs.Components
import Stubwright.Proofs.SourcePaths

/-!
# One class, one location

    binary name ──relativePath──▶ source file ──classFile?──▶ class file
         │                                                        ║
         ├────────classEntry──▶ entry in the archive, below a root
         └────qualifiedName──▶ name of the class, dots as slashes

The location of a stub is told in four ways: by the path of its source, by the class file that the
compiler puts beside it, by the entry in the archive, and by the name of the class in the manifest.
They are found by different operations on texts and paths, and all of them lead to the same place
(`located`).
-/

namespace Stubwright.Stub

open Java Host FileTree

variable {target : Descriptor}

/-! ## Names of classes -/

theorem simpleName_plain {c : Char} (hc : (c == '.' || c == '$') = true) :
    c ∉ target.simpleName.toList := by
  intro hmem
  rw [Descriptor.simpleName, Text.afterLast, String.toList_ofList, List.mem_reverse] at hmem
  have hpass := List.mem_takeWhile_imp hmem
  rw [hc] at hpass
  cases hpass

theorem dot_not_mem_className (target : Descriptor) : '.' ∉ (className target).toList := by
  rw [toList_className, List.mem_append, not_or]
  exact ⟨simpleName_plain (by decide), by decide⟩

theorem className_ne {s : String} (hs : s.toList.length < 4) : className target ≠ s := by
  rintro rfl
  rw [toList_className, List.length_append] at hs
  have hsuffix : classSuffix.toList.length = 4 := by decide
  omega

/-! ## Source files -/

/-- The package and a file in it. -/
def fileSegments (target : Descriptor) (extension : String) : List String :=
  target.packageSegments ++ [className target ++ "." ++ extension]

theorem fileSegments_ne_nil (target : Descriptor) (extension : String) :
    fileSegments target extension ≠ [] := List.concat_ne_nil _ _

theorem isComponent_of_mem_fileSegments (h : isBinaryName target.name = true) {extension : String}
    (hextension : '/' ∉ extension.toList) :
    ∀ segment ∈ fileSegments target extension, IsComponent segment :=
  List.forall_mem_append.mpr ⟨isComponent_of_mem_packageSegments h,
    List.forall_mem_singleton.mpr (isComponent_fileName h hextension)⟩

theorem isComponent_of_mem_sourceSegments (h : isBinaryName target.name = true) :
    ∀ segment ∈ fileSegments target sourceExtension, IsComponent segment :=
  isComponent_of_mem_fileSegments h (by decide)

theorem relativePath_eq (target : Descriptor) :
    relativePath target = Path.joinAll ⟨""⟩ (fileSegments target sourceExtension) :=
  (joinAll_concat _ _ _).symm

theorem components_relativePath (h : isBinaryName target.name = true) :
    components (relativePath target) = (fileSegments target sourceExtension).map .name := by
  have hempty : components ⟨""⟩ = [] := by decide
  rw [relativePath_eq, components_joinAll (isComponent_of_mem_sourceSegments h), hempty,
    List.nil_append]

/-- The source file is joined to the directory of the package, as far as its text goes. -/
theorem sourcePath_eq_join (h : isBinaryName target.name = true) (root : Path) :
    sourcePath root target = (packageDirectory root target).join ⟨sourceName target⟩ := by
  rw [sourcePath, relativePath_eq, join_joinAll_empty (fileSegments_ne_nil _ _)
    (isComponent_of_mem_sourceSegments h)]
  exact joinAll_concat _ _ _

theorem components_sourcePath (h : isBinaryName target.name = true) (root : Path) :
    components (sourcePath root target) = components root ++ components (relativePath target) := by
  have hcomponents := components_relativePath h
  exact components_join (by simp [hcomponents]) (by simp [hcomponents]) root

/-! ## Class files -/

theorem classEntry_eq (target : Descriptor) :
    classEntry target = "/".intercalate (fileSegments target classExtension) := rfl

/-- **The class file beside the source stands below the root as in the archive.** -/
theorem classFile?_sourcePath (h : isBinaryName target.name = true) (root : Path) :
    classFile? (sourcePath root target) = some (root.join ⟨classEntry target⟩) := by
  have hcomponent := isComponent_sourceName h
  have hstem : className target ≠ "" := className_ne (by decide)
  have hdot : className target ≠ "." := className_ne (by decide)
  have hext : '.' ∉ sourceExtension.toList := by decide
  have hsegments : ∀ segment ∈ fileSegments target classExtension, IsComponent segment :=
    isComponent_of_mem_fileSegments h (by decide)
  rw [classFile?, sourcePath_eq_join h, sourceName, extension?_join hcomponent hstem hext,
    if_pos (by simp), withExtension_join hcomponent hstem hdot hext, classEntry_eq,
    ← joinAll_empty (fileSegments_ne_nil _ _) hsegments,
    join_joinAll_empty (fileSegments_ne_nil _ _) hsegments]
  exact congrArg some (joinAll_concat _ _ _).symm

/-! ## Entries and qualified names -/

/-- A name with its dots turned into slashes. -/
def slashed (name : String) : String :=
  String.ofList (name.toList.map fun c => if c = '.' then '/' else c)

theorem slashed_of_not_mem {name : String} (h : '.' ∉ name.toList) : slashed name = name := by
  have hmap : name.toList.map (fun c => if c = '.' then '/' else c) = name.toList.map id :=
    List.map_congr_left fun c hc => if_neg (ne_of_mem_of_not_mem hc h)
  rw [slashed, hmap, List.map_id, String.ofList_toList]

theorem slashed_append (s t : String) : slashed (s ++ t) = slashed s ++ slashed t :=
  String.toList_inj.mp (by simp [slashed])

theorem intercalate_splitOnP (cs : List Char) :
    ['/'].intercalate (cs.splitOnP (· == '.')) = cs.map fun c => if c = '.' then '/' else c := by
  induction cs with
  | nil => rfl
  | cons c cs ih =>
    rw [List.splitOnP_cons_eq_if_modifyHead, List.map_cons, ← ih]
    by_cases hc : c = '.'
    · rw [if_pos (beq_iff_eq.mpr hc), if_pos hc,
        List.intercalate_cons_of_ne_nil (List.splitOnP_ne_nil _ _)]
      rfl
    · rw [if_neg (by simpa using hc), if_neg hc]
      cases hpieces : cs.splitOnP (· == '.') with
      | nil => exact absurd hpieces (List.splitOnP_ne_nil _ _)
      | cons piece pieces => rw [List.modifyHead_cons, List.intercalate_cons_cons_left]

theorem intercalate_packageSegments (h : target.package.isEmpty = false) :
    "/".intercalate target.packageSegments = slashed target.package := by
  have hpieces : target.packageSegments.map String.toList
      = target.package.toList.splitOnP (· == '.') := by
    simp [Descriptor.packageSegments, Text.pieces, h, Function.comp_def]
  rw [← String.toList_inj, String.toList_intercalate, hpieces, slashed, ← intercalate_splitOnP]
  exact String.toList_ofList.symm

/-- **The entry of a class is its qualified name with slashes.** -/
theorem classEntry_eq_slashed (target : Descriptor) (indent : Nat) (members : List Member) :
    classEntry target = slashed (source indent target members).qualifiedName ++ ".class" := by
  have hname : slashed (className target) = className target :=
    slashed_of_not_mem (dot_not_mem_className target)
  have hfile : className target ++ "." ++ classExtension = className target ++ ".class" :=
    String.append_assoc
  rw [classEntry_eq, fileSegments, hfile]
  dsimp only [Source.qualifiedName, source]
  cases hempty : target.package.isEmpty with
  | true =>
    have hsegments : target.packageSegments = [] := if_pos hempty
    rw [hsegments, if_pos rfl, List.nil_append, String.intercalate_singleton, hname]
  | false =>
    have hsegments : target.packageSegments ≠ [] := by
      simp [Descriptor.packageSegments, Text.pieces, hempty, List.splitOnP_ne_nil]
    have hdot : slashed "." = "/" := by decide
    rw [String.intercalate_append_of_ne_nil hsegments (List.cons_ne_nil _ _),
      String.intercalate_singleton, intercalate_packageSegments hempty, if_neg Bool.false_ne_true,
      slashed_append, slashed_append, hdot, hname]
    simp only [String.append_assoc]

/-- The entry of a class is told from the manifest by its last letter. -/
theorem classEntry_ne_manifest (target : Descriptor) :
    classEntry target ≠ Archive.Manifest.entryName := by
  intro heq
  have hlast : (classEntry target).toList.getLast?
      = Archive.Manifest.entryName.toList.getLast? := by rw [heq]
  rw [classEntry_eq_slashed target 0 [], String.toList_append,
    List.getLast?_append_of_ne_nil _ (by decide)] at hlast
  revert hlast
  decide

/-! ## One location -/

/-- Where the stub of a target is, told in all ways. -/
structure Located (root : Path) (target : Descriptor) : Prop where
  /-- The source file is in the directories of its package. -/
  relative : components (relativePath target)
    = (target.packageSegments ++ [className target ++ ".java"]).map .name
  /-- Each component is a name that leads down by one. -/
  proper : ∀ segment ∈ target.packageSegments ++ [className target ++ ".java"], IsComponent segment
  /-- The source file is below the root, in the text of its path and in every tree. -/
  below : components (sourcePath root target)
    = components root ++ components (relativePath target)
  place : ∀ base, placeOf base (sourcePath root target)
    = placeOf base root ++ (target.packageSegments ++ [className target ++ ".java"])
  /-- The directory that is made for the package is the one the source file is in. -/
  parent : ∃ parent, (sourcePath root target).parent? = some parent ∧
    components parent = components (packageDirectory root target)
  /-- The class file beside the source is below the root as the entry is in the archive. -/
  classFile : classFile? (sourcePath root target) = some (root.join ⟨classEntry target⟩)
  /-- The entry is the class that the manifest names. -/
  entry : ∀ indent members, classEntry target
    = slashed (source indent target members).qualifiedName ++ ".class"
  apart : classEntry target ≠ Archive.Manifest.entryName

/-- **All that is said of where a stub is leads to the same place**, for each binary name and each
root. -/
theorem located (h : isBinaryName target.name = true) (root : Path) : Located root target := by
  have hname : className target ++ ".java" = sourceName target := by
    rw [sourceName, String.append_assoc]
    rfl
  have hsegments : target.packageSegments ++ [className target ++ ".java"]
      = fileSegments target sourceExtension := by rw [hname]; rfl
  refine {
    relative := by rw [hsegments, components_relativePath h]
    proper := by rw [hsegments]; exact isComponent_of_mem_sourceSegments h
    below := components_sourcePath h root
    place := fun base => by rw [placeOf_sourcePath h, hname, List.append_assoc]
    parent := ?_
    classFile := classFile?_sourcePath h root
    entry := classEntry_eq_slashed target
    apart := classEntry_ne_manifest target }
  rw [sourcePath_eq_join h]
  exact parent?_join (isComponent_sourceName h) _

/-- A nested type. -/
def innerType : Descriptor := { name := "a.b.Outer$Inner" }

theorem located_nested :
    isBinaryName innerType.name = true ∧
      sourcePath ⟨"out/"⟩ innerType = ⟨"out/a/b/InnerImpl.java"⟩ ∧ Located ⟨"out/"⟩ innerType := by
  have h : isBinaryName innerType.name = true := by decide +kernel
  exact ⟨h, by decide +kernel, located h ⟨"out/"⟩⟩

end Stubwright.Stub

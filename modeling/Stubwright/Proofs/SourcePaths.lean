import Stubwright.Proofs.BinaryNames
import Stubwright.Proofs.Joins
import Stubwright.Stub.Location

/-!
# Where the files of a target are

    binary name ──cut──▶ package segments, class name ──join──▶ places below a root

The segments of the package and the name of the source file are components of paths: none of them is
empty, leads up, or holds a slash. So each leads down by one, and the source file of a target stands
below its root, wherever that is (`placeOf_sourcePath`).
-/

namespace Stubwright.Stub

open Java Host FileTree

/-! ## Pieces between dots -/

/-- What stands between two dots of a binary name. -/
structure IsPiece (w : List Char) : Prop where
  nonempty : w ≠ []
  parts : ∀ c ∈ w, isIdentifierPart c = true

theorem IsPiece.isComponent {w : List Char} (h : IsPiece w) : IsComponent (String.ofList w) := by
  have hdot : '.' ∉ w := fun hmem => absurd (h.parts _ hmem) (by decide)
  have hslash : '/' ∉ w := fun hmem => absurd (h.parts _ hmem) (by decide)
  have hne : ∀ s : String, w ≠ s.toList → String.ofList w ≠ s := by
    rintro s hw rfl
    exact hw String.toList_ofList.symm
  refine ⟨⟨hne _ h.nonempty, hne _ ?_, hne _ ?_⟩, by rwa [String.toList_ofList]⟩
  · rintro rfl
    exact hdot List.mem_cons_self
  · rintro rfl
    exact hdot List.mem_cons_self

/-- What no separator is in goes to the first piece. -/
theorem splitOnP_append {p : Char → Bool} {w : List Char} (h : ∀ c ∈ w, p c = false)
    (cs : List Char) : (w ++ cs).splitOnP p = (cs.splitOnP p).modifyHead (w ++ ·) := by
  induction w with
  | nil => exact (congrFun List.modifyHead_id _).symm
  | cons c w ih =>
    rw [List.forall_mem_cons] at h
    rw [List.cons_append, List.splitOnP_cons_eq_if_modifyHead, h.1, ih h.2]
    simp [List.modifyHead_modifyHead, Function.comp_def]

theorem isPiece_of_joined {cs : List Char} (h : Joined IsSegment cs) :
    ∀ w ∈ cs.splitOnP (· == '.'), IsPiece w := by
  have hpiece : ∀ {w : List Char}, IsSegment w → IsPiece w :=
    fun hw => ⟨hw.1.ne_nil, isIdentifierPart_of_mem hw.1⟩
  have hplain : ∀ {w : List Char}, IsSegment w → ∀ c ∈ w, (c == '.') = false :=
    fun hw c hc => beq_false_of_ne (ne_of_mem_of_not_mem hc (dot_not_mem hw.1))
  induction h with
  | single hw =>
    rw [List.splitOnP_eq_singleton (hplain hw)]
    exact List.forall_mem_singleton.mpr (hpiece hw)
  | @join w rest c hw hc _ ih =>
    simp only [isNameSeparator, Bool.or_eq_true, beq_iff_eq] at hc
    rcases hc with rfl | rfl
    · rw [List.splitOnP_append_cons_of_forall_mem (hplain hw) _ rfl, List.forall_mem_cons]
      exact ⟨hpiece hw, ih⟩
    · -- a dollar sign stays within its piece
      have hdollar : ∀ c ∈ w ++ ['$'], (c == '.') = false :=
        List.forall_mem_append.mpr ⟨hplain hw, List.forall_mem_singleton.mpr rfl⟩
      rw [← List.singleton_append, ← List.append_assoc, splitOnP_append hdollar]
      cases hrest : rest.splitOnP (· == '.') with
      | nil => exact absurd hrest (List.splitOnP_ne_nil _ _)
      | cons v vs =>
        rw [hrest, List.forall_mem_cons] at ih
        rw [List.modifyHead_cons, List.forall_mem_cons]
        refine ⟨⟨by simp, ?_⟩, ih.2⟩
        refine List.forall_mem_append.mpr ⟨List.forall_mem_append.mpr ⟨?_, ?_⟩, ih.1.parts⟩
        · exact (hpiece hw).parts
        · exact List.forall_mem_singleton.mpr rfl

/-! ## Packages and file names -/

variable {target : Descriptor}

theorem cutLast?_eq_some {p : Char → Bool} {cs before after : List Char}
    (h : Text.cutLast? p cs = some (before, after)) :
    ∃ c, p c = true ∧ cs = before ++ c :: after := by
  unfold Text.cutLast? at h
  have hsplit := List.takeWhile_append_dropWhile (p := (!p ·)) (l := cs.reverse)
  have hhead := List.head?_dropWhile_not (!p ·) cs.reverse
  split at h
  · cases h
  · next c rest hdrop =>
    cases h
    rw [hdrop] at hhead hsplit
    refine ⟨c, by simpa using hhead, ?_⟩
    rw [← List.reverse_inj, List.reverse_append, List.reverse_cons, List.reverse_reverse,
      List.reverse_reverse, List.append_assoc, List.singleton_append, hsplit]

/-- The package is what stands before the last dot of the name. -/
theorem package_cases (target : Descriptor) :
    target.package = "" ∨ ∃ after, target.name.toList = target.package.toList ++ '.' :: after := by
  unfold Descriptor.package
  split
  · exact .inl rfl
  · next before after hcut _ =>
    obtain ⟨c, hc, hname⟩ := cutLast?_eq_some hcut
    refine .inr ⟨after, ?_⟩
    rw [hname, eq_of_beq hc, String.toList_ofList]
  · exact .inl rfl

theorem isComponent_of_mem_packageSegments (h : isBinaryName target.name = true) :
    ∀ segment ∈ target.packageSegments, IsComponent segment := by
  have hpieces := isPiece_of_joined (isBinaryName_iff.mp h)
  intro segment hsegment
  unfold Descriptor.packageSegments at hsegment
  rcases package_cases target with hempty | ⟨after, hname⟩
  · rw [hempty] at hsegment
    cases hsegment
  · rw [hname, List.splitOnP_append_cons _ _ rfl] at hpieces
    split at hsegment
    · cases hsegment
    · obtain ⟨w, hw, rfl⟩ := List.mem_map.mp hsegment
      exact (hpieces w (List.mem_append_left _ hw)).isComponent

theorem toList_className (target : Descriptor) :
    (className target).toList = target.simpleName.toList ++ classSuffix.toList :=
  String.toList_append

theorem isWord_simpleName (h : isBinaryName target.name = true) :
    IsWord target.simpleName.toList := by
  rw [Descriptor.simpleName, Text.afterLast, String.toList_ofList]
  exact (isSegment_lastPiece (isBinaryName_iff.mp h)).1

/-- **The name of a stub class is an identifier**: no reserved word ends like it. -/
theorem isIdentifier_className (h : isBinaryName target.name = true) :
    isIdentifier (className target) = true := by
  have hreserved : className target ∉ reservedWords := by
    intro hmem
    have hending : ∀ word ∈ reservedWords, ¬ classSuffix.toList <:+ word.toList := by decide
    exact hending _ hmem ⟨_, (toList_className target).symm⟩
  have hsuffix : classSuffix.toList.all isIdentifierPart = true := by decide
  have hword := isWord_simpleName h
  have hname := toList_className target
  unfold IsWord isIdentifier at hword
  rw [String.toList_ofList] at hword
  unfold isIdentifier
  cases hcs : target.simpleName.toList with
  | nil =>
    rw [hcs] at hword
    cases hword
  | cons c cs =>
    rw [hcs] at hword hname
    rw [hname, List.cons_append]
    simp only [Bool.and_eq_true] at hword ⊢
    refine ⟨⟨hword.1.1, ?_⟩, by simpa using hreserved⟩
    rw [List.all_append, hword.1.2, hsuffix]
    rfl

/-- A file that is named for the class is in the directory of the package, whatever its extension. -/
theorem isComponent_fileName (h : isBinaryName target.name = true) {extension : String}
    (hextension : '/' ∉ extension.toList) :
    IsComponent (className target ++ "." ++ extension) := by
  have hword : IsWord (className target).toList := by
    rw [IsWord, String.ofList_toList]
    exact isIdentifier_className h
  have htoList : (className target ++ "." ++ extension).toList
      = (className target).toList ++ '.' :: extension.toList := by
    simp
  have hlength : 4 < (className target ++ "." ++ extension).toList.length := by
    rw [htoList, toList_className]
    simp [classSuffix]
    omega
  have hne : ∀ s : String, s.toList.length ≤ 4 → className target ++ "." ++ extension ≠ s := by
    rintro s hs rfl
    omega
  refine ⟨⟨hne _ (by decide), hne _ (by decide), hne _ (by decide)⟩, fun hslash => ?_⟩
  rw [htoList, List.mem_append, List.mem_cons] at hslash
  rcases hslash with hslash | hslash | hslash
  · exact absurd (isIdentifierPart_of_mem hword _ hslash) (by decide)
  · exact absurd hslash (by decide)
  · exact hextension hslash

/-- The name of the source file. -/
def sourceName (target : Descriptor) : String := className target ++ "." ++ sourceExtension

theorem isComponent_sourceName (h : isBinaryName target.name = true) :
    IsComponent (sourceName target) := isComponent_fileName h (by decide)

/-! ## Places -/

/-- The source file stands below its root. -/
theorem sourcePath_eq (root : Path) (target : Descriptor) :
    sourcePath root target
      = root.join (((Path.mk "").joinAll target.packageSegments).join ⟨sourceName target⟩) := rfl

/-- **The source file of a target stands in the directory of its package.** -/
theorem placeOf_sourcePath (h : isBinaryName target.name = true) (base : Place) (root : Path) :
    placeOf base (sourcePath root target)
      = placeOf base root ++ target.packageSegments ++ [sourceName target] := by
  have hcomponents := isComponent_of_mem_packageSegments h
  have hempty : Path.isAbsolute ⟨""⟩ = false := rfl
  have hrelative := isAbsolute_join (isAbsolute_joinAll hempty hcomponents)
    (isAbsolute_component (isComponent_sourceName h))
  have hhere : ∀ place, placeOf place ⟨""⟩ = place := fun _ => rfl
  rw [sourcePath_eq, placeOf_join hrelative, placeOf_join_component (isComponent_sourceName h),
    placeOf_joinAll hcomponents, hhere]

end Stubwright.Stub

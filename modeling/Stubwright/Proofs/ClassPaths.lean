import Stubwright.Proofs.Packaging

/-!
# Class paths as one argument

    scratch, CLASSPATH, configured ──search──▶ entries ──join?──▶ argument ──split──▶ the same entries

A compiler gets its class path as one text with separators between the entries. Splitting a text gives
the one list of entries that hold no separator and make up the text (`split_eq_iff`), so that joining
entries loses nothing if it works (`split_of_join?`). It works unless an entry of the build itself holds
a separator: what comes from the environment was split before. Main statement
(`javac_intact_or_refused`): the compiler is started with exactly the entries of the build, or the
build fails before it is started.
-/

namespace Stubwright.Build

open Java Host Stub

namespace ClassPath

/-! ## Splitting and joining -/

/-- No piece between the characters that satisfy `p` has one of them. -/
theorem not_mem_of_mem_splitOnP {p : Char → Bool} {cs piece : List Char}
    (h : piece ∈ cs.splitOnP p) : ∀ c ∈ piece, p c = false := by
  induction cs generalizing piece with
  | nil =>
    rw [List.splitOnP_nil, List.mem_singleton] at h
    rw [h]
    exact List.forall_mem_nil _
  | cons c cs ih =>
    rw [List.splitOnP_cons_eq_if_modifyHead] at h
    by_cases hc : p c = true
    · rw [if_pos hc, List.mem_cons] at h
      rcases h with rfl | h
      · exact List.forall_mem_nil _
      · exact ih h
    · rw [if_neg hc] at h
      cases hpieces : cs.splitOnP p with
      | nil => exact absurd hpieces (List.splitOnP_ne_nil _ _)
      | cons first later =>
        rw [hpieces] at h ih
        rcases List.mem_cons.mp h with rfl | h
        · exact List.forall_mem_cons.mpr ⟨Bool.eq_false_iff.mpr hc, ih List.mem_cons_self⟩
        · exact ih (List.mem_cons_of_mem _ h)

/-- No entry holds a separator. -/
def Undivided (entries : ClassPath) : Prop := ∀ p ∈ entries, separator ∉ p.text.toList

theorem undivided_split (text : String) : Undivided (split text) := by
  intro p hp
  obtain ⟨piece, hpiece, rfl⟩ := List.mem_map.mp hp
  obtain ⟨cs, hcs, rfl⟩ := List.mem_map.mp hpiece
  rw [String.toList_ofList]
  intro hmem
  have hseparator := not_mem_of_mem_splitOnP hcs separator hmem
  rw [beq_self_eq_true] at hseparator
  cases hseparator

theorem toList_intercalate (entries : ClassPath) :
    (separator.toString.intercalate (entries.map (·.text))).toList
      = [separator].intercalate (entries.map (·.text.toList)) := by
  rw [String.toList_intercalate, List.map_map]
  rfl

/-- **A text is split into the one list of entries without separators that makes it up.** -/
theorem split_eq_iff {text : String} {entries : ClassPath} :
    split text = entries ↔
      entries ≠ [] ∧ Undivided entries ∧
        separator.toString.intercalate (entries.map (·.text)) = text := by
  have htexts : (split text).map (·.text.toList) = text.toList.splitOn separator := by
    unfold split Text.pieces List.splitOn
    rw [List.map_map, List.map_map]
    exact (List.map_congr_left fun cs _ => String.toList_ofList).trans (List.map_id _)
  constructor
  · rintro rfl
    refine ⟨?_, undivided_split text, ?_⟩
    · simp [split, Text.pieces, List.splitOnP_ne_nil]
    · rw [← String.toList_inj, toList_intercalate, htexts, List.intercalate_splitOn]
  · rintro ⟨hne, hundivided, rfl⟩
    have hpieces : ∀ cs ∈ entries.map (·.text.toList), separator ∉ cs := by
      intro cs hcs
      obtain ⟨p, hp, rfl⟩ := List.mem_map.mp hcs
      exact hundivided p hp
    have hinj : Function.Injective fun p : Path => p.text.toList := by
      rintro ⟨s⟩ ⟨t⟩ heq
      exact congrArg Path.mk (String.toList_inj.mp heq)
    apply hinj.list_map
    rw [htexts, toList_intercalate, List.splitOn_intercalate _ hpieces (by simpa using hne)]

theorem join?_eq_some_iff {entries : ClassPath} {joined : String} :
    join? entries = some joined ↔
      Undivided entries ∧ separator.toString.intercalate (entries.map (·.text)) = joined := by
  unfold join? Undivided
  split
  · next h =>
    obtain ⟨p, hp, hmem⟩ := List.any_eq_true.mp h
    simp only [reduceCtorEq, false_iff, not_and]
    exact fun hall => absurd (by simpa using hmem) (hall p hp)
  · next h =>
    simp only [Option.some.injEq, iff_and_self]
    intro _ p hp hmem
    exact h (List.any_eq_true.mpr ⟨p, hp, by simpa using hmem⟩)

/-- **Joined entries are split into just these.** -/
theorem split_of_join? {entries : ClassPath} (hne : entries ≠ []) {joined : String}
    (h : join? entries = some joined) : split joined = entries :=
  split_eq_iff.mpr ⟨hne, join?_eq_some_iff.mp h⟩

theorem join?_eq_none_iff {entries : ClassPath} : join? entries = none ↔ ¬ Undivided entries := by
  rw [Option.eq_none_iff_forall_ne_some]
  simp only [ne_eq, join?_eq_some_iff]
  exact ⟨fun h hundivided => h _ ⟨hundivided, rfl⟩, fun h _ hjoined => h hjoined.1⟩

/-! ## The class path of a build -/

/-- The entries that the environment gives, if its class path is set and searched: the pieces that are
not empty. -/
def inheritedEntries (inherited? : Option String) : ClassPath :=
  inherited?.elim [] fun text => (split text).filter (·.text ≠ "")

theorem search_eq (scratch : Path) (inherited? : Option String) (configured : ClassPath) :
    search scratch inherited? configured = scratch :: inheritedEntries inherited? ++ configured := by
  cases inherited? with
  | none => rfl
  | some text =>
    have hempty : ∀ p : Path, (!p.isEmpty) = decide (p.text ≠ "") := by
      intro p
      rw [Bool.eq_iff_iff]
      simp [Path.isEmpty]
    simp only [search, inheritedEntries, Option.elim, hempty]

/-- What the environment gives can always be joined. -/
theorem undivided_search_iff (scratch : Path) (inherited? : Option String)
    (configured : ClassPath) :
    Undivided (search scratch inherited? configured) ↔ Undivided (scratch :: configured) := by
  have hinherited : Undivided (inheritedEntries inherited?) := by
    cases inherited? with
    | none => exact List.forall_mem_nil _
    | some text => exact fun p hp => undivided_split text p (List.mem_of_mem_filter hp)
  rw [search_eq]
  unfold Undivided at hinherited ⊢
  simp only [List.cons_append, List.forall_mem_cons, List.forall_mem_append]
  exact ⟨fun h => ⟨h.1, h.2.2⟩, fun h => ⟨h.1, hinherited, h.2⟩⟩

end ClassPath

/-! ## The compiler -/

section

variable {σ : Type} {host : Host (StateM σ)} {settings : Settings (StateM σ)} {L : Library}
  {target : Descriptor} {source : Source} {program scratch file destination : Path}
  {extra : List String} {classPath : ClassPath} {joined : String} {s made written : σ}

/-- How the end of the program is told. -/
def compilerAnswer (program : Path) :
    Except IoError ProgramResult → Except CompileError CompileStatus
  | .error e => .error (if e.isNotFound then .unavailable program e else .io e)
  | .ok result =>
    .ok ⟨result.code, Text.ofUtf8Lossy result.stderr ++ Text.ofUtf8Lossy result.stdout⟩

/-- A class path that is one text is passed to the program. -/
theorem javac_joined (h : classPath.join? = some joined) (file : Path) (s : σ) :
    javac host program extra file classPath s =
      (compilerAnswer program (host.run program (compilerArguments joined extra file) s).1,
        (host.run program (compilerArguments joined extra file) s).2) := by
  unfold javac
  rw [h]
  dsimp only
  rw [bind_apply]
  generalize host.run program (compilerArguments joined extra file) s = run
  obtain ⟨_ | result, after⟩ := run
  · rfl
  · rfl

/-- With any other class path the program is not started. -/
theorem javac_divided (h : classPath.join? = none) (file : Path) (s : σ) :
    javac host program extra file classPath s = (.error (.classPath separatorInEntry), s) := by
  unfold javac
  rw [h]
  rfl

/-- Then a build whose source is written stops, and only the scratch directory is removed. -/
theorem package_divided (hjavac : settings.compiler = javac host program extra)
    (hdivided : (ClassPath.search scratch settings.inherited? settings.classPath).join? = none)
    (hsource : render L settings.indent target = .ok source)
    (hmake : host.makeScratch settings.scratchParent s = (.ok scratch, made))
    (hwritten : writeSource host scratch target source made = (.ok file, written)) :
    package host settings L target destination s
      = (.error (.compile (.classPath separatorInEntry)), (host.removeTree scratch written).2) := by
  have hcompile : compile host settings scratch file written
      = (.error (.classPath separatorInEntry), written) := by
    unfold compile
    dsimp only
    rw [bind_apply, hjavac, javac_divided hdivided]
    rfl
  have hstages := buildIn_uncompiled destination hwritten hcompile
  exact package_stopped hsource hmake hstages rfl

/-- **The class path reaches the compiler intact or not at all.** If neither the scratch directory nor
a configured entry holds a separator, the program is started with one argument that is split into the
scratch directory, what the environment gives, and the configured entries. Otherwise nothing is
started, and a build that comes to its compiler fails there. -/
theorem javac_intact_or_refused (hjavac : settings.compiler = javac host program extra)
    (scratch : Path) :
    (ClassPath.Undivided (scratch :: settings.classPath) → ∃ joined,
      ClassPath.split joined
        = scratch :: ClassPath.inheritedEntries settings.inherited? ++ settings.classPath ∧
      ∀ file s, settings.compiler file
          (ClassPath.search scratch settings.inherited? settings.classPath) s =
        (compilerAnswer program (host.run program
            (["-encoding", "UTF-8", "-cp", joined] ++ extra ++ [file.text]) s).1,
          (host.run program (["-encoding", "UTF-8", "-cp", joined] ++ extra ++ [file.text]) s).2)) ∧
    (¬ ClassPath.Undivided (scratch :: settings.classPath) →
      (∀ file s, settings.compiler file
          (ClassPath.search scratch settings.inherited? settings.classPath) s
        = (.error (.classPath separatorInEntry), s)) ∧
      ∀ L target source destination file s made written,
        render L settings.indent target = .ok source →
        host.makeScratch settings.scratchParent s = (.ok scratch, made) →
        writeSource host scratch target source made = (.ok file, written) →
        ∃ e, package host settings L target destination s
            = (.error e, (host.removeTree scratch written).2) ∧
          e = .compile (.classPath separatorInEntry) ∧ e.stage = .compile) := by
  rw [hjavac, ← ClassPath.undivided_search_iff scratch settings.inherited? settings.classPath]
  constructor
  · intro hundivided
    have hjoin := ClassPath.join?_eq_some_iff.mpr ⟨hundivided, rfl⟩
    refine ⟨_, ?_, javac_joined hjoin⟩
    rw [ClassPath.split_of_join? (by simp [ClassPath.search]) hjoin, ClassPath.search_eq]
  · intro hdivided
    have hjoin := ClassPath.join?_eq_none_iff.mpr hdivided
    refine ⟨javac_divided hjoin, ?_⟩
    intro L target source destination file s made written hsource hmake hwritten
    exact ⟨_, package_divided hjavac hjoin hsource hmake hwritten, rfl, rfl⟩

end

/-- A build that asks for debugging information, in an environment with a class path of its own. -/
def debugSettings (classPath : ClassPath) : Settings (StateM Trial) where
  compiler := javac Trial.host ⟨"javac"⟩ ["-g"]
  writer := Archive.write Trial.host .stored
  inherited? := some "x.jar::y.jar:"
  classPath

theorem javac_intact_or_refused_debug :
    (∃ joined, ClassPath.split joined
      = [⟨"/w/./ironimpl-000000"⟩, ⟨"x.jar"⟩, ⟨"y.jar"⟩, ⟨"lib/z.jar"⟩, ⟨""⟩]) ∧
    ∃ e after, package Trial.host (debugSettings [⟨"c:d"⟩]) shapes shapeType ⟨"out/shape.jar"⟩ atWork
      = (.error e, after) ∧ e.stage = .compile := by
  constructor
  · have hjavac : (debugSettings [⟨"lib/z.jar"⟩, ⟨""⟩]).compiler
        = javac Trial.host ⟨"javac"⟩ ["-g"] := rfl
    have hundivided : ClassPath.Undivided (⟨"/w/./ironimpl-000000"⟩ :: [⟨"lib/z.jar"⟩, ⟨""⟩]) := by
      unfold ClassPath.Undivided
      decide
    obtain ⟨joined, hsplit, -⟩ :=
      (javac_intact_or_refused hjavac ⟨"/w/./ironimpl-000000"⟩).1 hundivided
    exact ⟨joined, hsplit.trans (by decide +kernel)⟩
  · have hjavac : (debugSettings [⟨"c:d"⟩]).compiler = javac Trial.host ⟨"javac"⟩ ["-g"] := rfl
    have hdivided : ¬ ClassPath.Undivided (⟨"/w/./ironimpl-000000"⟩ :: [⟨"c:d"⟩]) := by
      unfold ClassPath.Undivided
      decide
    obtain ⟨-, hpackage⟩ := (javac_intact_or_refused hjavac ⟨"/w/./ironimpl-000000"⟩).2 hdivided
    have hmembers : members shapes shapeType = .ok shapeType.members := by decide +kernel
    have hsource : render shapes defaultIndent shapeType
        = .ok (Stub.source defaultIndent shapeType shapeType.members) := by
      rw [render, hmembers]
      rfl
    have hmake : (Trial.host.makeScratch Path.here atWork).1 = .ok ⟨"/w/./ironimpl-000000"⟩ := by
      decide +kernel
    have hwritten : (writeSource Trial.host ⟨"/w/./ironimpl-000000"⟩ shapeType
        (Stub.source defaultIndent shapeType shapeType.members)
        (Trial.host.makeScratch Path.here atWork).2).1
          = .ok ⟨"/w/./ironimpl-000000/a/ShapeImpl.java"⟩ := by decide +kernel
    obtain ⟨e, hrun, -, hstage⟩ := hpackage shapes shapeType _ ⟨"out/shape.jar"⟩ _ atWork _ _ hsource
      (Prod.ext hmake rfl) (Prod.ext hwritten rfl)
    exact ⟨e, _, hrun, hstage⟩

end Stubwright.Build

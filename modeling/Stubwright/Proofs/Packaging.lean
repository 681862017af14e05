import Stubwright.Build.Package
import Stubwright.Proofs.ArchiveWrites
import Stubwright.Proofs.Scratch
import Stubwright.Proofs.SourceWrites

/-!
# What a build does to the files

    trial ──makeScratch──▶ ──writeSource──▶ ──compiler──▶ Compiled ──writer──▶ ──removeTree──▶ after
               (all within the scratch directory)                   (at the destination)

A build is followed on a machine on which any operation may fail, with any compiler that keeps to the
scratch directory (`Confined`). Up to the archive, nothing outside of the scratch directory changes
(`Outside`). The archive is written only from a class file that was there after the compiler reported
success (`Compiled`), and as a whole or not at all. The last step is always to remove the scratch
directory, as the stages left it (`ScratchRemoved`). `PackageEnding` lists how a build can end; what
follows for the files is put together in `AllOrNothing`.
-/

namespace Stubwright.Build

open Java Host FileTree Trial Stub

variable {L : Library} {target : Descriptor} {source : Source} {scratch destination : Path}
  {settings : Settings (StateM Trial)} {compression : Archive.Compression} {trial : Trial}

/-! ## Within the scratch directory -/

/-- Nothing outside of a path is different. -/
structure OnlyWithin (path : Path) (trial after : Trial) : Prop where
  base : after.memory.base = trial.memory.base
  outside : ∀ x, ¬ placeOf trial.memory.base path <+: x →
    after.memory.tree.get? x = trial.memory.tree.get? x

namespace OnlyWithin

variable {path : Path} {after later : Trial}

theorem trans (h : OnlyWithin path trial after) (h' : OnlyWithin path after later) :
    OnlyWithin path trial later := by
  refine ⟨h'.base.trans h.base, fun x hx => ?_⟩
  rw [h'.outside x (h.base ▸ hx), h.outside x hx]

theorem of_goes (h : Goes trial [] after) (path : Path) : OnlyWithin path trial after :=
  ⟨h.base, fun x _ => by rw [h.tree_same]⟩

end OnlyWithin

/-- The scratch directory was just made. -/
structure JustMade (scratch : Path) (trial made : Trial) : Prop where
  within : OnlyWithin scratch trial made
  found : made.memory.tree.find made.memory.base scratch
    = .ok (placeOf trial.memory.base scratch, .directory)
  ne_nil : placeOf trial.memory.base scratch ≠ []

theorem justMade_of_makeScratch {parent : Path} {made : Trial}
    (h : Trial.host.makeScratch parent trial = (.ok scratch, made)) : JustMade scratch trial made := by
  rcases makeScratch_cases trial parent with
    ⟨e, after, hmake, -⟩ | ⟨scratch', t, made', hmake, hgoes, hmade⟩
  · rw [hmake] at h
    cases h
  · rw [hmake] at h
    cases h
    refine ⟨⟨hgoes.base, fun x hx => ?_⟩, ?_, hmade.ne_nil⟩
    · rw [hgoes.tree_eq]
      exact hmade.outside hx
    · rw [hgoes.base, hgoes.tree_eq]
      exact hmade.found

/-- Directories for a package are added within the scratch directory, since that one is there. -/
theorem get?_eq_outside {base place x : Place} {t t' : FileTree} (h : isBinaryName target.name = true)
    (hfound : t.find base scratch = .ok (place, .directory)) (hx : ¬ placeOf base scratch <+: x)
    (hgrown : t'.get? x = t.get? x ∨ (t.get? x = none ∧ t'.get? x = some .directory ∧
      x ∈ stations base (packageDirectory scratch target))) : t'.get? x = t.get? x := by
  rcases hgrown with heq | ⟨hnone, -, hmem⟩
  · exact heq
  · rcases mem_stations_joinAll (isComponent_of_mem_packageSegments h) hmem with hstation | hbelow
    · rw [directories_of_find hfound x hstation] at hnone
      cases hnone
    · exact absurd hbelow hx

theorem prefix_placeOf_sourcePath (h : isBinaryName target.name = true) (base : Place)
    (scratch : Path) : placeOf base scratch <+: placeOf base (sourcePath scratch target) := by
  rw [placeOf_sourcePath h, List.append_assoc]
  exact List.prefix_append _ _

/-- A source is written within the scratch directory. -/
theorem writeSource_within (h : isBinaryName target.name = true) {place : Place} (source : Source)
    (hfound : trial.memory.tree.find trial.memory.base scratch = .ok (place, .directory)) :
    ∃ answer after, writeSource Trial.host scratch target source trial = (answer, after) ∧
      OnlyWithin scratch trial after ∧
      ∀ path, answer = .ok path → path = sourcePath scratch target := by
  obtain ⟨answer, trees, after, hrun, hgoes, -, houtcome⟩ := writeSource_cases h trial scratch source
  refine ⟨answer, after, hrun, ?_⟩
  rcases houtcome with ⟨⟨e, rfl, -⟩, hgrown⟩ | ⟨rfl, -, hplaced⟩
  · exact ⟨⟨hgoes.base, fun x hx => get?_eq_outside h hfound hx (hgrown x)⟩, nofun⟩
  · have hprefix := prefix_placeOf_sourcePath h trial.memory.base scratch
    refine ⟨⟨hgoes.base, fun x hx => ?_⟩, fun path hpath => (Except.ok.inj hpath).symm⟩
    have hne : x ≠ placeOf trial.memory.base (sourcePath scratch target) := by
      intro heq
      rw [heq] at hx
      exact hx hprefix
    exact get?_eq_outside h hfound hx (hplaced.others x hne)

/-- Compiling the source of a target changes nothing outside of the scratch directory. -/
def Confined (scratch : Path) (target : Descriptor) (compiler : Compiler (StateM Trial)) : Prop :=
  ∀ classPath trial, OnlyWithin scratch trial (compiler (sourcePath scratch target) classPath trial).2

/-- The class file that a compiler is to leave for a source. -/
def expectedClass (source : Path) : Path :=
  (classFile? source).getD (source.withExtension classExtension)

/-- A compiler run that succeeded: the compiler reported success, and the class file was there. -/
structure Succeeds (settings : Settings (StateM Trial)) (scratch source : Path)
    (written compiled : Trial) : Prop where
  reported : ∃ status reported,
    settings.compiler source
        (ClassPath.search scratch settings.inherited? settings.classPath) written
      = (.ok status, reported) ∧ status.isSuccess = true ∧
    Trial.host.isFile (expectedClass source) reported = (true, compiled)

theorem compile_cases (hconfined : Confined scratch target settings.compiler) (written : Trial) :
    ∃ answer after,
      compile Trial.host settings scratch (sourcePath scratch target) written = (answer, after) ∧
      OnlyWithin scratch written after ∧
      ∀ path, answer = .ok path → path = expectedClass (sourcePath scratch target) ∧
        Succeeds settings scratch (sourcePath scratch target) written after := by
  have hwithin := hconfined (ClassPath.search scratch settings.inherited? settings.classPath) written
  unfold compile
  dsimp only
  rw [bind_apply]
  generalize hrun : settings.compiler (sourcePath scratch target)
    (ClassPath.search scratch settings.inherited? settings.classPath) written = run at hwithin
  obtain ⟨_ | status, reported⟩ := run
  · exact ⟨_, reported, rfl, hwithin, nofun⟩
  · dsimp only
    split
    · exact ⟨_, reported, rfl, hwithin, nofun⟩
    · next hsuccess =>
      obtain ⟨answer, compiled, hasked, hgoes, -⟩ :=
        isFile_cases reported (expectedClass (sourcePath scratch target))
      have hwithin' := hwithin.trans (.of_goes hgoes scratch)
      show ∃ answer after, (Trial.host.isFile (expectedClass (sourcePath scratch target)) >>= _)
        reported = (answer, after) ∧ _
      rw [bind_apply, hasked]
      cases answer with
      | false => exact ⟨_, compiled, rfl, hwithin', nofun⟩
      | true =>
        refine ⟨_, compiled, rfl, hwithin', fun path hpath => ⟨(Except.ok.inj hpath).symm, ?_⟩⟩
        exact ⟨status, reported, hrun, by simpa using hsuccess, hasked⟩

/-! ## Stages -/

/-- An error of a stage before the archive. -/
inductive BeforeArchive : BuildError → Prop
  | generate (e : StubError) : BeforeArchive (.generate e)
  | compile (e : CompileError) : BeforeArchive (.compile e)

/-- The archive that a build makes of the class file that was compiled. -/
def classFileEntry (scratch : Path) (target : Descriptor) : Archive.Entry :=
  ⟨classEntry target, expectedClass (sourcePath scratch target)⟩

theorem buildIn_unwritten {σ : Type} {host : Host (StateM σ)} (settings : Settings (StateM σ))
    {e : StubError} {s written : σ} (destination : Path)
    (hwritten : writeSource host scratch target source s = (.error e, written)) :
    buildIn host settings target source destination scratch s = (.error (.generate e), written) := by
  rw [buildIn, bind_apply, hwritten]
  rfl

theorem buildIn_uncompiled {σ : Type} {host : Host (StateM σ)} {settings : Settings (StateM σ)}
    {e : CompileError} {file : Path} {s written compiled : σ} (destination : Path)
    (hwritten : writeSource host scratch target source s = (.ok file, written))
    (hcompiled : compile host settings scratch file written = (.error e, compiled)) :
    buildIn host settings target source destination scratch s = (.error (.compile e), compiled) := by
  rw [buildIn, bind_apply, hwritten]
  dsimp only
  rw [bind_apply, hcompiled]
  rfl

theorem buildIn_compiled {σ : Type} {host : Host (StateM σ)} {settings : Settings (StateM σ)}
    {file classFile : Path} {s written compiled : σ}
    (hwritten : writeSource host scratch target source s = (.ok file, written))
    (hcompiled : compile host settings scratch file written = (.ok classFile, compiled)) :
    buildIn host settings target source destination scratch s
      = (match (settings.writer destination ⟨source.qualifiedName⟩ ⟨classEntry target, classFile⟩
            compiled).1 with
        | .error e => .error (.archive e)
        | .ok () => .ok ⟨destination, .archived⟩,
        (settings.writer destination ⟨source.qualifiedName⟩ ⟨classEntry target, classFile⟩
          compiled).2) := by
  rw [buildIn, bind_apply, hwritten]
  dsimp only
  rw [bind_apply, hcompiled]
  dsimp only
  rw [bind_apply]
  cases (settings.writer destination ⟨source.qualifiedName⟩ ⟨classEntry target, classFile⟩
    compiled).1 <;> rfl

/-- **The stages that use the scratch directory** stop before the archive, and then nothing outside of
it is different and the writer had no part in it, or they end as the writer does. -/
theorem buildIn_cases (h : isBinaryName target.name = true)
    (hconfined : Confined scratch target settings.compiler) {place : Place} (source : Source)
    (destination : Path)
    (hfound : trial.memory.tree.find trial.memory.base scratch = .ok (place, .directory)) :
    (∃ e last, BeforeArchive e ∧ OnlyWithin scratch trial last ∧ ∀ writer,
      buildIn Trial.host { settings with writer } target source destination scratch trial
        = (.error e, last)) ∨
    ∃ written compiled,
      writeSource Trial.host scratch target source trial
        = (.ok (sourcePath scratch target), written) ∧
      Succeeds settings scratch (sourcePath scratch target) written compiled ∧
      OnlyWithin scratch trial compiled ∧
      buildIn Trial.host settings target source destination scratch trial
        = (match (settings.writer destination ⟨source.qualifiedName⟩
              (classFileEntry scratch target) compiled).1 with
          | .error e => .error (.archive e)
          | .ok () => .ok ⟨destination, .archived⟩,
          (settings.writer destination ⟨source.qualifiedName⟩
            (classFileEntry scratch target) compiled).2) := by
  obtain ⟨answer, written, hwritten, hwithin, hpath⟩ := writeSource_within h source hfound
  cases answer with
  | error e =>
    exact .inl ⟨.generate e, written, .generate e, hwithin, fun writer =>
      buildIn_unwritten { settings with writer } destination hwritten⟩
  | ok path =>
    rw [hpath path rfl] at hwritten
    obtain ⟨answer, compiled, hcompiled, hwithin', hclass⟩ := compile_cases hconfined written
    cases answer with
    | error e =>
      refine .inl ⟨.compile e, compiled, .compile e, hwithin.trans hwithin', fun writer => ?_⟩
      exact buildIn_uncompiled destination hwritten hcompiled
    | ok path =>
      obtain ⟨hexpected, hsucceeds⟩ := hclass path rfl
      rw [hexpected] at hcompiled
      refine .inr ⟨written, compiled, hwritten, hsucceeds, hwithin.trans hwithin', ?_⟩
      exact buildIn_compiled hwritten hcompiled

/-! ## Whole builds -/

/-- A build that got as far as the archive. -/
structure Compiled (settings : Settings (StateM Trial)) (L : Library) (target : Descriptor)
    (trial : Trial) (scratch : Path) (source : Source) (compiled : Trial) : Prop where
  rendered : render L settings.indent target = .ok source
  succeeded : ∃ made written,
    Trial.host.makeScratch settings.scratchParent trial = (.ok scratch, made) ∧
    writeSource Trial.host scratch target source made = (.ok (sourcePath scratch target), written) ∧
    Succeeds settings scratch (sourcePath scratch target) written compiled

/-- The removal of the scratch directory, which ends a build. -/
structure Cleaned (scratch : Path) (last : Trial) (answer : Except IoError Unit) (after : Trial) :
    Prop where
  run : Trial.host.removeTree scratch last = (answer, after)
  removes : Removes scratch last answer after

/-- The archive stage, which had this outcome. -/
structure Archives (settings : Settings (StateM Trial)) (compression : Archive.Compression)
    (target : Descriptor) (source : Source) (destination scratch : Path) (compiled : Trial)
    (answer : Except ArchiveError Unit) (last : Trial) : Prop where
  run : settings.writer destination ⟨source.qualifiedName⟩ (classFileEntry scratch target) compiled
    = (answer, last)
  writes : Archive.WritesArchive compression destination ⟨source.qualifiedName⟩
    (classFileEntry scratch target) compiled answer last

/-- How a build can end. -/
inductive PackageEnding (settings : Settings (StateM Trial)) (compression : Archive.Compression)
    (L : Library) (target : Descriptor) (destination : Path) (trial : Trial) :
    Except BuildError Report → Trial → Prop
  /-- There is no stub of the target. -/
  | refused {e : StubError} : render L settings.indent target = .error e →
    PackageEnding settings compression L target destination trial (.error (.generate e)) trial
  /-- There is no scratch directory. -/
  | scratchless {e : IoError} {source : Source} {after : Trial} :
    render L settings.indent target = .ok source →
    Trial.host.makeScratch settings.scratchParent trial = (.error e, after) →
    Goes trial [] after → PackageEnding settings compression L target destination trial
      (.error (.scratch settings.scratchParent e)) after
  /-- There is no class file. -/
  | stopped {e : BuildError} {source : Source} {scratch : Path} {made last after : Trial}
      {removed : Except IoError Unit} :
    render L settings.indent target = .ok source →
    Trial.host.makeScratch settings.scratchParent trial = (.ok scratch, made) →
    BeforeArchive e → OnlyWithin scratch trial last → Cleaned scratch last removed after →
    PackageEnding settings compression L target destination trial (.error e) after
  /-- There is no archive. -/
  | unarchived {e : ArchiveError} {source : Source} {scratch : Path}
      {compiled last after : Trial} {removed : Except IoError Unit} :
    Compiled settings L target trial scratch source compiled → OnlyWithin scratch trial compiled →
    Archives settings compression target source destination scratch compiled (.error e) last →
    Cleaned scratch last removed after →
    PackageEnding settings compression L target destination trial (.error (.archive e)) after
  /-- There is an archive, but the scratch directory may be there too. -/
  | littered {e : IoError} {source : Source} {scratch : Path} {compiled last after : Trial} :
    Compiled settings L target trial scratch source compiled → OnlyWithin scratch trial compiled →
    Archives settings compression target source destination scratch compiled (.ok ()) last →
    Cleaned scratch last (.error e) after →
    PackageEnding settings compression L target destination trial (.error (.cleanup scratch e)) after
  | finished {source : Source} {scratch : Path} {compiled last after : Trial} :
    Compiled settings L target trial scratch source compiled → OnlyWithin scratch trial compiled →
    Archives settings compression target source destination scratch compiled (.ok ()) last →
    Cleaned scratch last (.ok ()) after →
    PackageEnding settings compression L target destination trial
      (.ok ⟨destination, classEntry target, source.qualifiedName, .removed⟩) after

theorem archives_of_write (hwriter : settings.writer = Archive.write Trial.host compression)
    (target : Descriptor) (source : Source) (destination scratch : Path) (compiled : Trial) :
    ∃ answer last,
      Archives settings compression target source destination scratch compiled answer last := by
  obtain ⟨answer, last, hrun, hwrites⟩ := Archive.write_cases compression destination
    ⟨source.qualifiedName⟩ (classFileEntry scratch target) compiled
  exact ⟨answer, last, by rw [hwriter, hrun], hwrites⟩

theorem cleaned_of_removeTree (last : Trial) (hne : placeOf last.memory.base scratch ≠ []) :
    ∃ removed after, Cleaned scratch last removed after := by
  obtain ⟨removed, after, hrun, hremoves⟩ := removeTree_cases last hne
  exact ⟨removed, after, hrun, hremoves⟩

theorem package_refused {σ : Type} {host : Host (StateM σ)} (settings : Settings (StateM σ))
    {e : StubError} (h : render L settings.indent target = .error e) (s : σ) :
    package host settings L target destination s = (.error (.generate e), s) := by
  unfold package
  rw [h]
  rfl

theorem package_scratchless {e : IoError} {after : Trial}
    (hsource : render L settings.indent target = .ok source)
    (hmake : Trial.host.makeScratch settings.scratchParent trial = (.error e, after)) :
    package Trial.host settings L target destination trial
      = (.error (.scratch settings.scratchParent e), after) := by
  unfold package
  rw [hsource]
  dsimp only
  rw [bind_apply, hmake]
  rfl

theorem package_stopped {σ : Type} {host : Host (StateM σ)} {settings : Settings (StateM σ)}
    {s made last after : σ} {removed : Except IoError Unit} {e : BuildError}
    (hsource : render L settings.indent target = .ok source)
    (hmake : host.makeScratch settings.scratchParent s = (.ok scratch, made))
    (hstages : buildIn host settings target source destination scratch made = (.error e, last))
    (hremoved : host.removeTree scratch last = (removed, after)) :
    package host settings L target destination s = (.error e, after) := by
  unfold package
  rw [hsource]
  dsimp only
  rw [bind_apply, hmake]
  dsimp only
  rw [bind_apply, hstages]
  dsimp only
  rw [bind_apply, hremoved]
  rfl

theorem package_through {σ : Type} {host : Host (StateM σ)} {settings : Settings (StateM σ)}
    {s made last : σ} {artifact : Artifact}
    (hsource : render L settings.indent target = .ok source)
    (hmake : host.makeScratch settings.scratchParent s = (.ok scratch, made))
    (hstages : buildIn host settings target source destination scratch made = (.ok artifact, last)) :
    package host settings L target destination s
      = (match (host.removeTree scratch last).1 with
        | .error e => .error (.cleanup scratch e)
        | .ok () => .ok ⟨destination, classEntry target, source.qualifiedName,
            (artifact.advance .removed destination).1.state⟩, (host.removeTree scratch last).2) := by
  unfold package
  rw [hsource]
  dsimp only
  rw [bind_apply, hmake]
  dsimp only
  rw [bind_apply, hstages]
  dsimp only
  rw [bind_apply]
  cases (host.removeTree scratch last).1 <;> rfl

/-- **The last step removes the scratch directory from what the stages left**, however they ended. -/
theorem package_removes {σ : Type} {host : Host (StateM σ)} {settings : Settings (StateM σ)}
    {s made last : σ} {ended : Except BuildError Artifact}
    (hsource : render L settings.indent target = .ok source)
    (hmake : host.makeScratch settings.scratchParent s = (.ok scratch, made))
    (hstages : buildIn host settings target source destination scratch made = (ended, last)) :
    (package host settings L target destination s).2 = (host.removeTree scratch last).2 := by
  cases ended with
  | error e => rw [package_stopped hsource hmake hstages rfl]
  | ok artifact => rw [package_through hsource hmake hstages]

/-- **How a build ends.** If it does not get as far as the archive, the writer has no part in it. -/
theorem package_ending (destination : Path)
    (hbinary : ∀ source, render L settings.indent target = .ok source →
      isBinaryName target.name = true)
    (hwriter : settings.writer = Archive.write Trial.host compression)
    (hconfined : ∀ scratch made, Trial.host.makeScratch settings.scratchParent trial
      = (.ok scratch, made) → Confined scratch target settings.compiler) :
    ∃ answer after, package Trial.host settings L target destination trial = (answer, after) ∧
      PackageEnding settings compression L target destination trial answer after ∧
      ((∃ scratch source compiled, Compiled settings L target trial scratch source compiled) ∨
        ∀ writer, package Trial.host { settings with writer } L target destination trial
          = (answer, after)) := by
  cases hsource : render L settings.indent target with
  | error e =>
    exact ⟨_, trial, package_refused settings hsource trial, .refused hsource,
      .inr fun writer => package_refused { settings with writer } hsource trial⟩
  | ok source =>
    rcases makeScratch_cases trial settings.scratchParent with
      ⟨e, after, hmake, hgoes⟩ | ⟨scratch, t, made, hmake, -, -⟩
    · exact ⟨_, after, package_scratchless hsource hmake, .scratchless hsource hmake hgoes,
        .inr fun writer => package_scratchless hsource hmake⟩
    · have hmade := justMade_of_makeScratch hmake
      have hcleaned : ∀ {last : Trial}, last.memory.base = trial.memory.base →
          ∃ removed after, Cleaned scratch last removed after :=
        fun hbase => cleaned_of_removeTree _ (hbase ▸ hmade.ne_nil)
      rcases buildIn_cases (hbinary source hsource) (hconfined scratch made hmake)
          source destination hmade.found with
        ⟨e, last, hbefore, hwithin, hstages⟩ |
          ⟨written, compiled, hwritten, hsucceeds, hwithin, hstages⟩
      · have hwithin := hmade.within.trans hwithin
        obtain ⟨removed, after, hcleaned⟩ := hcleaned hwithin.base
        have hrun : ∀ writer, package Trial.host { settings with writer } L target destination
            trial = (.error e, after) :=
          fun writer => package_stopped hsource hmake (hstages writer) hcleaned.run
        exact ⟨_, after, hrun settings.writer, .stopped hsource hmake hbefore hwithin hcleaned,
          .inr hrun⟩
      · have hwithin := hmade.within.trans hwithin
        have hcompiled : Compiled settings L target trial scratch source compiled :=
          ⟨hsource, made, written, hmake, hwritten, hsucceeds⟩
        obtain ⟨answer, last, harchives⟩ :=
          archives_of_write hwriter target source destination scratch compiled
        rw [harchives.run] at hstages
        obtain ⟨removed, after, hcleaned⟩ := hcleaned (harchives.writes.base.trans hwithin.base)
        cases answer with
        | error e =>
          exact ⟨_, after, package_stopped hsource hmake hstages hcleaned.run,
            .unarchived hcompiled hwithin harchives hcleaned, .inl ⟨_, _, _, hcompiled⟩⟩
        | ok u =>
          have hrun := package_through hsource hmake hstages
          rw [hcleaned.run] at hrun
          refine ⟨_, after, hrun, ?_, .inl ⟨_, _, _, hcompiled⟩⟩
          cases removed with
          | error e => exact .littered hcompiled hwithin harchives hcleaned
          | ok u => exact .finished hcompiled hwithin harchives hcleaned

/-! ## The end of the scratch directory -/

/-- The build ended with the removal of the scratch directory from the machine that the stages left. -/
structure ScratchRemoved (trial : Trial) (scratch : Path) (last after : Trial) : Prop where
  /-- The removal is the last step. -/
  ends : (Trial.host.removeTree scratch last).2 = after
  /-- If it works, nothing is left of the directory. -/
  gone : (Trial.host.removeTree scratch last).1 = .ok () →
    ∀ x, placeOf trial.memory.base scratch <+: x → after.memory.tree.get? x = none
  /-- It works unless it is made to fail, as long as there is a directory. -/
  works : ∀ draw place, last.Works draw →
    last.memory.tree.find last.memory.base scratch = .ok (place, .directory) →
    (Trial.host.removeTree scratch last).1 = .ok ()

/-- The stages that use the scratch directory leave the working directory where it is. -/
theorem base_buildIn (h : isBinaryName target.name = true)
    (hwriter : settings.writer = Archive.write Trial.host compression)
    (hconfined : Confined scratch target settings.compiler) {place : Place} (source : Source)
    (destination : Path)
    (hfound : trial.memory.tree.find trial.memory.base scratch = .ok (place, .directory)) :
    (buildIn Trial.host settings target source destination scratch trial).2.memory.base
      = trial.memory.base := by
  rcases buildIn_cases h hconfined source destination hfound with
    ⟨e, last, -, hwithin, hstages⟩ | ⟨written, compiled, -, -, hwithin, hstages⟩
  · have hstages : buildIn Trial.host settings target source destination scratch trial
        = (.error e, last) := hstages settings.writer
    rw [hstages]
    exact hwithin.base
  · obtain ⟨answer, last, harchives⟩ :=
      archives_of_write hwriter target source destination scratch compiled
    rw [hstages, harchives.run]
    exact harchives.writes.base.trans hwithin.base

/-- **However the stages end, the scratch directory is removed from what they left.** -/
theorem scratchRemoved {made last : Trial} {ended : Except BuildError Artifact}
    (h : isBinaryName target.name = true)
    (hwriter : settings.writer = Archive.write Trial.host compression)
    (hconfined : Confined scratch target settings.compiler)
    (hsource : render L settings.indent target = .ok source)
    (hmake : Trial.host.makeScratch settings.scratchParent trial = (.ok scratch, made))
    (hstages : buildIn Trial.host settings target source destination scratch made = (ended, last)) :
    ScratchRemoved trial scratch last
      (package Trial.host settings L target destination trial).2 := by
  have hmade := justMade_of_makeScratch hmake
  have hbase : last.memory.base = trial.memory.base := by
    have hlast := base_buildIn h hwriter hconfined source destination hmade.found
    rw [hstages] at hlast
    exact hlast.trans hmade.within.base
  obtain ⟨removed, after, hrun, hremoves⟩ := cleaned_of_removeTree last (hbase ▸ hmade.ne_nil)
  rw [package_removes hsource hmake hstages]
  refine ⟨rfl, fun hok x hx => ?_, fun draw place => removeTree_works⟩
  rw [hrun] at hok ⊢
  exact hremoves.gone hok x (hbase ▸ hx)

/-! ## All or nothing -/

/-- A place that is not in the scratch directory which the build makes. -/
def Outside (settings : Settings (StateM Trial)) (trial : Trial) (x : Place) : Prop :=
  ∀ scratch made, Trial.host.makeScratch settings.scratchParent trial = (.ok scratch, made) →
    ¬ placeOf trial.memory.base scratch <+: x

/-- The file at the destination is the archive of a class file with this content. -/
def ArchiveAt (compression : Archive.Compression) (target : Descriptor) (source : Source)
    (content : Bytes) (base : Place) (destination : Path) (t : FileTree) : Prop :=
  t.find base destination = .ok (placeOf base destination, .file
    (Archive.archiveBytes compression ⟨source.qualifiedName⟩ (classEntry target) content) false)

/-- The archive of the class file that was compiled is complete when the writer is done, before the
scratch directory is removed, which is the last step. It is still found then, unless the way to it leads
through that directory, whose name was drawn only now. -/
structure Archived (settings : Settings (StateM Trial)) (compression : Archive.Compression)
    (L : Library) (target : Descriptor) (destination : Path) (trial : Trial) (scratch : Path)
    (source : Source) (compiled : Trial) (content : Bytes) (after : Trial) : Prop where
  succeeded : Compiled settings L target trial scratch source compiled
  classFile : ∃ executable, compiled.memory.tree.get?
      (placeOf trial.memory.base (expectedClass (sourcePath scratch target)))
    = some (.file content executable)
  archive : ∃ last, settings.writer destination ⟨source.qualifiedName⟩ (classFileEntry scratch target)
      compiled = (.ok (), last) ∧
    ArchiveAt compression target source content trial.memory.base destination last.memory.tree ∧
    (Trial.host.removeTree scratch last).2 = after
  archiveStays : (∀ s ∈ stations trial.memory.base destination, Outside settings trial s) →
    ArchiveAt compression target source content trial.memory.base destination after.memory.tree
  others : ∀ x, Outside settings trial x → x ≠ placeOf trial.memory.base destination →
    after.memory.tree.get? x = trial.memory.tree.get? x ∨
      (trial.memory.tree.get? x = none ∧ after.memory.tree.get? x = some .directory ∧
        x ∈ stations trial.memory.base (Archive.directoryOf destination))

/-- What packaging a target may do to a machine. -/
structure AllOrNothing (settings : Settings (StateM Trial)) (compression : Archive.Compression)
    (L : Library) (target : Descriptor) (destination : Path) (trial : Trial)
    (answer : Except BuildError Report) (after : Trial) : Prop where
  /-- A target that cannot be implemented leaves everything untouched. -/
  invalid : ∀ e, checkTarget target = .error e → answer = .error (.generate e) ∧ after = trial
  /-- A failure before the cleanup leaves everything outside of the scratch directory as it was, apart
  from directories on the way to the destination if it is a failure of the archive. -/
  failed : ∀ e, answer = .error e → e.stage ≠ .cleanup → ∀ x, Outside settings trial x →
    after.memory.tree.get? x = trial.memory.tree.get? x ∨
      (e.stage = .archive ∧ trial.memory.tree.get? x = none ∧
        after.memory.tree.get? x = some .directory ∧
        x ∈ stations trial.memory.base (Archive.directoryOf destination))
  /-- The archive is not begun before the compiler reported success and the class file was there. -/
  archiving : ∀ e, answer = .error (.archive e) →
    ∃ scratch source compiled, Compiled settings L target trial scratch source compiled
  /-- Until then it makes no difference what the writer would do. -/
  writer : (∀ scratch source compiled, ¬ Compiled settings L target trial scratch source compiled) →
    ∀ writer, package Trial.host { settings with writer } L target destination trial
      = (answer, after)
  /-- A success leaves the archive and nothing in the scratch directory. -/
  done : ∀ report, answer = .ok report → report.state = .removed ∧
    ∃ scratch source compiled content,
      Archived settings compression L target destination trial scratch source compiled content
        after ∧
      ∀ x, placeOf trial.memory.base scratch <+: x → after.memory.tree.get? x = none
  /-- A failure of the cleanup leaves the archive too. -/
  cleanup : ∀ scratch e, answer = .error (.cleanup scratch e) → ∃ source compiled content,
    Archived settings compression L target destination trial scratch source compiled content after
  /-- The scratch directory, once it was made, is removed in the end from what the stages left, however
  they ended. -/
  scratch : ∀ source scratch made ended last, render L settings.indent target = .ok source →
    Trial.host.makeScratch settings.scratchParent trial = (.ok scratch, made) →
    buildIn Trial.host settings target source destination scratch made = (ended, last) →
    ScratchRemoved trial scratch last after

theorem render_of_checkTarget {e : StubError} (h : checkTarget target = .error e) (indent : Nat) :
    render L indent target = .error e := by
  unfold render members
  rw [h]
  rfl

/-- What a build that made an archive leaves. -/
theorem archived_of_compiled {compiled last after : Trial} {removed : Except IoError Unit}
    (hcompiled : Compiled settings L target trial scratch source compiled)
    (hwithin : OnlyWithin scratch trial compiled)
    (harchives : Archives settings compression target source destination scratch compiled (.ok ()) last)
    (hcleaned : Cleaned scratch last removed after) :
    ∃ content, Archived settings compression L target destination trial scratch source compiled
      content after := by
  obtain ⟨hrun, hwrites⟩ := harchives
  obtain ⟨content, executable, hclass, hplaced⟩ := hwrites.done rfl
  dsimp only [classFileEntry] at hclass hplaced
  obtain ⟨made, -, hmake, -, -⟩ := hcompiled.succeeded
  rw [hwithin.base] at hclass hplaced
  have hremoved : ∀ x, Outside settings trial x →
      after.memory.tree.get? x = last.memory.tree.get? x := by
    intro x hx
    refine hcleaned.removes.outside x ?_
    rw [hwrites.base, hwithin.base]
    exact hx scratch made hmake
  refine ⟨content, hcompiled, ⟨executable, hclass⟩, ?_, fun hapart => ?_, fun x hx hne => ?_⟩
  · exact ⟨last, hrun, hplaced.found, by rw [hcleaned.run]⟩
  · refine find_keeps (fun x hx hdirectory => ?_) hplaced.found ?_
    · rw [hremoved x (hapart x hx), hdirectory]
    · have hplace := hapart _ (placeOf_mem_stations trial.memory.base destination)
      rw [hremoved _ hplace, (placeOf_of_find hplaced.found).2]
  · rw [hremoved x hx, ← hwithin.outside x (hx scratch made hmake)]
    exact hplaced.others x hne

/-- What a build that made no archive leaves. -/
theorem get?_of_unarchived {compiled last after : Trial} {removed : Except IoError Unit}
    {e : ArchiveError} (hwithin : OnlyWithin scratch trial compiled)
    (harchives : Archives settings compression target source destination scratch compiled (.error e)
      last)
    (hcleaned : Cleaned scratch last removed after) {x : Place}
    (hx : ¬ placeOf trial.memory.base scratch <+: x) :
    after.memory.tree.get? x = trial.memory.tree.get? x ∨
      (trial.memory.tree.get? x = none ∧ after.memory.tree.get? x = some .directory ∧
        x ∈ stations trial.memory.base (Archive.directoryOf destination)) := by
  have hgrown := harchives.writes.failed e rfl x
  rw [hwithin.base, hwithin.outside x hx] at hgrown
  rw [← hwithin.base, ← harchives.writes.base] at hx
  rw [hcleaned.removes.outside x hx]
  exact hgrown

namespace PackageEnding

variable {answer : Except BuildError Report} {after : Trial}

theorem invalid (h : PackageEnding settings compression L target destination trial answer after)
    {e : StubError} (hcheck : checkTarget target = .error e) :
    answer = .error (.generate e) ∧ after = trial := by
  have hrender := render_of_checkTarget (L := L) hcheck settings.indent
  have hnone : ∀ {source : Source}, render L settings.indent target ≠ .ok source := by
    intro source hsource
    rw [hrender] at hsource
    cases hsource
  cases h with
  | refused hrefused =>
    rw [hrender] at hrefused
    cases hrefused
    exact ⟨rfl, rfl⟩
  | scratchless hsource => exact absurd hsource hnone
  | stopped hsource => exact absurd hsource hnone
  | unarchived hcompiled => exact absurd hcompiled.rendered hnone
  | littered hcompiled => exact absurd hcompiled.rendered hnone
  | finished hcompiled => exact absurd hcompiled.rendered hnone

theorem failed (h : PackageEnding settings compression L target destination trial answer after)
    {e : BuildError} (he : answer = .error e) (hstage : e.stage ≠ .cleanup) {x : Place}
    (hx : Outside settings trial x) :
    after.memory.tree.get? x = trial.memory.tree.get? x ∨
      (e.stage = .archive ∧ trial.memory.tree.get? x = none ∧
        after.memory.tree.get? x = some .directory ∧
        x ∈ stations trial.memory.base (Archive.directoryOf destination)) := by
  cases h with
  | refused => exact .inl rfl
  | scratchless _ _ hgoes => exact .inl (by rw [hgoes.tree_same])
  | stopped _ hmake _ hwithin hcleaned =>
    have houtside := hx _ _ hmake
    refine .inl ?_
    rw [hcleaned.removes.outside x (hwithin.base ▸ houtside), hwithin.outside x houtside]
  | unarchived hcompiled hwithin harchives hcleaned =>
    cases he
    obtain ⟨made, -, hmake, -, -⟩ := hcompiled.succeeded
    exact (get?_of_unarchived hwithin harchives hcleaned (hx _ _ hmake)).imp_right (⟨rfl, ·⟩)
  | littered =>
    cases he
    exact absurd rfl hstage
  | finished => cases he

theorem archiving (h : PackageEnding settings compression L target destination trial answer after)
    {e : ArchiveError} (he : answer = .error (.archive e)) :
    ∃ scratch source compiled, Compiled settings L target trial scratch source compiled := by
  cases h with
  | refused => cases he
  | scratchless => cases he
  | stopped _ _ hbefore =>
    cases he
    cases hbefore
  | unarchived hcompiled => exact ⟨_, _, _, hcompiled⟩
  | littered hcompiled => exact ⟨_, _, _, hcompiled⟩
  | finished => cases he

theorem done (h : PackageEnding settings compression L target destination trial answer after)
    {report : Report} (hreport : answer = .ok report) :
    report.state = .removed ∧ ∃ scratch source compiled content,
      Archived settings compression L target destination trial scratch source compiled content
        after ∧
      ∀ x, placeOf trial.memory.base scratch <+: x → after.memory.tree.get? x = none := by
  cases h with
  | refused => cases hreport
  | scratchless => cases hreport
  | stopped => cases hreport
  | unarchived => cases hreport
  | littered => cases hreport
  | finished hcompiled hwithin harchives hcleaned =>
    cases hreport
    obtain ⟨content, harchived⟩ := archived_of_compiled hcompiled hwithin harchives hcleaned
    refine ⟨rfl, _, _, _, content, harchived, fun x hx => ?_⟩
    rw [← hwithin.base, ← harchives.writes.base] at hx
    exact hcleaned.removes.gone rfl x hx

theorem cleanup (h : PackageEnding settings compression L target destination trial answer after)
    {scratch : Path} {e : IoError} (he : answer = .error (.cleanup scratch e)) :
    ∃ source compiled content,
      Archived settings compression L target destination trial scratch source compiled content
        after := by
  cases h with
  | refused => cases he
  | scratchless => cases he
  | stopped _ _ hbefore =>
    cases he
    cases hbefore
  | unarchived => cases he
  | littered hcompiled hwithin harchives hcleaned =>
    cases he
    exact ⟨_, _, archived_of_compiled hcompiled hwithin harchives hcleaned⟩
  | finished => cases he

end PackageEnding

/-- **A build is all or nothing and leaves no scratch directory**, whichever operations fail and
whatever the compiler does in there. -/
theorem package_allOrNothing {name : String} (hL : L.validate = .ok ())
    (htarget : resolveTarget L name = .ok target)
    (hwriter : settings.writer = Archive.write Trial.host compression)
    (hconfined : ∀ scratch made, Trial.host.makeScratch settings.scratchParent trial
      = (.ok scratch, made) → Confined scratch target settings.compiler) (destination : Path) :
    AllOrNothing settings compression L target destination trial
      (package Trial.host settings L target destination trial).1
      (package Trial.host settings L target destination trial).2 := by
  obtain ⟨answer, after, hrun, hending, hwriters⟩ :=
    package_ending destination (fun source => isBinaryName_of_render hL htarget) hwriter hconfined
  rw [hrun]
  exact {
    invalid := fun e => hending.invalid
    failed := fun e he hstage x => hending.failed he hstage
    archiving := fun e => hending.archiving
    writer := fun hnot writer => by
      rcases hwriters with ⟨scratch, source, compiled, hcompiled⟩ | hsame
      · exact absurd hcompiled (hnot scratch source compiled)
      · exact hsame writer
    done := fun report => hending.done
    cleanup := fun scratch e => hending.cleanup
    scratch := fun source scratch made ended last hrender hmake hstages => by
      have hremoved := scratchRemoved (isBinaryName_of_render hL htarget hrender) hwriter
        (hconfined scratch made hmake) hrender hmake hstages
      rwa [hrun] at hremoved }

/-- A compiler that leaves a few bytes as the class file. -/
def leavesMark : Compiler (StateM Trial) := fun source _ trial =>
  match trial.memory.tree.writeFile trial.memory.base (source.withExtension classExtension)
      [0xCA, 0xFE, 0xBA, 0xBE] false with
  | .ok tree => (.ok .success, { trial with memory := { trial.memory with tree } })
  | .error e => (.error (.io e), trial)

/-- Below a scratch directory that is named in full, the class file has its place there. -/
theorem confined_leavesMark {scratch : Path} (hplace : ∀ base, placeOf base scratch
      <+: placeOf base ((sourcePath scratch target).withExtension classExtension)) :
    Confined scratch target leavesMark := by
  intro classPath trial
  unfold leavesMark
  cases hwritten : trial.memory.tree.writeFile trial.memory.base
      ((sourcePath scratch target).withExtension classExtension) [0xCA, 0xFE, 0xBA, 0xBE] false with
  | error e => exact ⟨rfl, fun _ _ => rfl⟩
  | ok t =>
    obtain ⟨s, name, hleads, rfl⟩ := writeFile_eq_ok hwritten
    refine ⟨rfl, fun x hx => ?_⟩
    show (FileTree.set _ _ _).get? x = _
    rw [get?_set hleads.placeOf_ne_nil, if_neg]
    intro heq
    rw [heq] at hx
    exact hx (hplace trial.memory.base)

/-- The settings of a build with that compiler. -/
def markSettings : Settings (StateM Trial) where
  compiler := leavesMark
  writer := Archive.write Trial.host .stored

/-- An interface with one member. -/
def shapeType : Descriptor :=
  { name := "a.Shape", members := [{ name := "area", returns := .primitive .int }] }

/-- The machine in an empty working directory. -/
def atWork : Trial := { memory := .atPlace ["w"] }

theorem confined_shapes : Confined ⟨"/w/./ironimpl-000000"⟩ shapeType leavesMark := by
  have hclass : (sourcePath ⟨"/w/./ironimpl-000000"⟩ shapeType).withExtension classExtension
      = ⟨"/w/./ironimpl-000000/a/ShapeImpl.class"⟩ := by decide +kernel
  have hscratch : Path.isAbsolute ⟨"/w/./ironimpl-000000"⟩ = true := by decide +kernel
  have habsolute : Path.isAbsolute ⟨"/w/./ironimpl-000000/a/ShapeImpl.class"⟩ = true := by
    decide +kernel
  have hbelow : placeOf [] ⟨"/w/./ironimpl-000000"⟩
      <+: placeOf [] ⟨"/w/./ironimpl-000000/a/ShapeImpl.class"⟩ := by decide +kernel
  refine confined_leavesMark fun base => ?_
  rw [hclass, placeOf_absolute hscratch, placeOf_absolute habsolute]
  exact hbelow

theorem package_allOrNothing_shapes :
    shapes.validate = .ok () ∧ resolveTarget shapes "a.Shape" = .ok shapeType ∧
      (package Trial.host markSettings shapes shapeType ⟨"out/shape.jar"⟩ atWork).1
        = .ok ⟨⟨"out/shape.jar"⟩, "a/ShapeImpl.class", "a.ShapeImpl", .removed⟩ ∧
      AllOrNothing markSettings .stored shapes shapeType ⟨"out/shape.jar"⟩ atWork
        (package Trial.host markSettings shapes shapeType ⟨"out/shape.jar"⟩ atWork).1
        (package Trial.host markSettings shapes shapeType ⟨"out/shape.jar"⟩ atWork).2 := by
  have hL : shapes.validate = .ok () := by decide +kernel
  have htarget : resolveTarget shapes "a.Shape" = .ok shapeType := by decide +kernel
  have hwriter : markSettings.writer = Archive.write Trial.host .stored := by
    dsimp only [markSettings]
  have hcompiler : markSettings.compiler = leavesMark := by dsimp only [markSettings]
  have hconfined : ∀ scratch made, Trial.host.makeScratch markSettings.scratchParent atWork
      = (.ok scratch, made) → Confined scratch shapeType markSettings.compiler := by
    intro scratch made hmake
    have hdrawn : (Trial.host.makeScratch markSettings.scratchParent atWork).1
        = .ok ⟨"/w/./ironimpl-000000"⟩ := by decide +kernel
    rw [hmake] at hdrawn
    rw [Except.ok.inj hdrawn, hcompiler]
    exact confined_shapes
  exact ⟨hL, htarget, by decide +kernel,
    package_allOrNothing hL htarget hwriter hconfined _⟩

end Stubwright.Build

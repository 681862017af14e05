import Stubwright.CommandLine.Run
import Stubwright.Proofs.Packaging

/-!
# Both ways of running

    options ──loadLibrary──▶ library ──resolveTarget──▶ target ──members──▶ members ─┬──▶ source file
                                                                                     └──▶ archive

An invocation writes the source of a stub or makes an archive of it. Up to the members of the target
both do the same, but they wrap what goes wrong there differently, and each first looks at what stands
at its path. Where nothing does, an invocation that fails that early fails in the same way in both
modes (`run_of_failsEarly`). One that gets any further fails because of files, compiler or archive, and
exit codes tell this apart (`run_of_hasSource`). So both modes agree on all early failures
(`modes_agree`).
-/

namespace Stubwright.CommandLine

open Java Build Host Stub

/-! ## Kinds of failures -/

namespace Failure

/-- The kinds of failures that come before anything is written. -/
def isEarly : Failure → Bool
  | unresolvedType | invalidTarget | library => true
  | generation | path | compile | archive => false

theorem isEarly_iff (f : Failure) : f.isEarly = true ↔ f.exitCode ∈ [3, 4, 9] := by
  cases f <;> decide

theorem isEarly_ofStub {e : StubError} (h : AboutFiles e) : (ofStub e).isEarly = false := by
  cases h with
  | write => rfl
  | directory => rfl

end Failure

/-- An error that comes after the members of the target are known. -/
def Late (e : RunError) : Prop := e.failure.isEarly = false

theorem late_of_afterRendering {e : BuildError} (h : AfterRendering e) : Late (.build e) := by
  cases h with
  | generate h => exact Failure.isEarly_ofStub h
  | scratch => rfl
  | compile => rfl
  | archive => rfl
  | cleanup => rfl

/-! ## Machines with any programs -/

/-- What running a program may do. -/
abbrev Programs := Path → List String → StateM Trial (Except IoError ProgramResult)

/-- A machine on which operations may fail, and programs do whatever they like. -/
def machine (programs : Programs) : Host (StateM Trial) := { Trial.host with run := programs }

variable {programs programs' : Programs} {environment environment' : String → Option String}
  {options options' : Options} {trial loaded asked : Trial} {L : Library} {T : Descriptor}
  {source : Source} {e : StubError} {f : Failure} {code : Nat}

theorem loadFiles_machine (c : Catalog) (paths : List Path) :
    loadFiles (machine programs) c paths = loadFiles Trial.host c paths := by
  induction paths generalizing c with
  | nil => rfl
  | cons path paths ih =>
    have hfile : Library.ofFile (machine programs) path = Library.ofFile Trial.host path := rfl
    simp only [loadFiles, hfile, ih]

/-- No program takes part in loading a library. -/
theorem loadLibrary_machine (paths : List Path) :
    loadLibrary (machine programs) paths = loadLibrary Trial.host paths := by
  rw [loadLibrary, loadFiles_machine, loadLibrary]

/-! ## What leaves the files alone -/

/-- A computation that leaves all files as they are. -/
def Still {α : Type} (x : StateM Trial α) : Prop := ∀ trial : Trial, trial.Goes [] (x trial).2

theorem still_pure {α : Type} (a : α) : Still (pure a) := fun trial => .refl trial

theorem Still.bind {α β : Type} {x : StateM Trial α} {k : α → StateM Trial β} (hx : Still x)
    (hk : ∀ a, Still (k a)) : Still (x >>= k) :=
  fun trial => (hx trial).trans (hk (x trial).1 (x trial).2)

theorem still_readText (path : Path) : Still (Trial.host.readText path) := by
  have hread : Still (Trial.host.readAll path) := by
    intro trial
    obtain ⟨answer, after, hrun, hgoes, -⟩ := Trial.readAll_cases trial path
    rw [hrun]
    exact hgoes
  refine hread.bind fun bytes => ?_
  cases bytes with
  | error e => exact still_pure _
  | ok bytes =>
    dsimp only
    split
    · exact still_pure _
    · exact still_pure _

theorem still_loadFiles (c : Catalog) (paths : List Path) :
    Still (loadFiles Trial.host c paths) := by
  induction paths generalizing c with
  | nil => exact still_pure _
  | cons path paths ih =>
    have hfile : Still (Library.ofFile Trial.host path) := by
      refine (still_readText path).bind fun text => ?_
      cases text with
      | error e => exact still_pure _
      | ok text => exact still_pure _
    refine hfile.bind fun read => ?_
    cases read with
    | error e => exact still_pure _
    | ok read =>
      dsimp only
      split
      · exact still_pure _
      · exact ih _

/-- Loading a library leaves all files as they are. -/
theorem still_loadLibrary (paths : List Path) : Still (loadLibrary Trial.host paths) := by
  refine (still_loadFiles _ paths).bind fun c => ?_
  cases c with
  | error e => exact still_pure _
  | ok c =>
    -- checking the library is no matter of the machine
    dsimp only
    split
    · exact still_pure _
    · exact still_pure _

/-- Nothing stands at the path. -/
def Absent (memory : Memory) (path : Path) : Prop :=
  ∃ e, memory.tree.find memory.base path = .error e

/-- Where nothing stands, nothing is seen, whether or not looking works. -/
theorem kind?_of_absent {path : Path} (h : Absent trial.memory path) :
    ∃ asked, Trial.host.kind? path trial = (none, asked) ∧ trial.Goes [] asked := by
  obtain ⟨answer, asked, hrun, hgoes, hfound⟩ := Trial.kind?_cases trial path
  cases answer with
  | none => exact ⟨asked, hrun, hgoes⟩
  | some kind =>
    obtain ⟨place, node, hfind, -⟩ := hfound kind rfl
    obtain ⟨e, hnone⟩ := h
    rw [hnone] at hfind
    cases hfind

/-! ## Runs that fail early -/

/-- An invocation fails before anything is written: its library is not loaded, its type is not
resolved, or it is not a target; and what kind of failure that is. -/
inductive FailsEarly (options : Options) (trial : Trial) : Failure → Prop
  | unloaded {e : RunError} : (loadLibrary Trial.host options.types trial).1 = .error e →
    FailsEarly options trial e.failure
  | unresolved {L : Library} {e : StubError} :
    (loadLibrary Trial.host options.types trial).1 = .ok L →
    resolveTarget L options.typeName = .error e → FailsEarly options trial (.ofStub e)
  | uninspected {L : Library} {T : Descriptor} {e : StubError} :
    (loadLibrary Trial.host options.types trial).1 = .ok L →
    resolveTarget L options.typeName = .ok T → members L T = .error e →
    FailsEarly options trial (.ofStub e)

/-- An invocation has the source of its stub. -/
structure HasSource (options : Options) (trial : Trial) (L : Library) (T : Descriptor)
    (source : Source) : Prop where
  loads : (loadLibrary Trial.host options.types trial).1 = .ok L
  resolves : resolveTarget L options.typeName = .ok T
  renders : render L options.indent T = .ok source

theorem render_of_members_error (h : members L T = .error e) (indent : Nat) :
    render L indent T = .error e := by
  rw [render, h]
  rfl

theorem failsEarly_or_hasSource (options : Options) (trial : Trial) :
    (∃ f, FailsEarly options trial f) ∨ ∃ L T source, HasSource options trial L T source := by
  cases hload : (loadLibrary Trial.host options.types trial).1 with
  | error e => exact .inl ⟨_, .unloaded hload⟩
  | ok L =>
    cases htarget : resolveTarget L options.typeName with
    | error e => exact .inl ⟨_, .unresolved hload htarget⟩
    | ok T =>
      cases hmembers : members L T with
      | error e => exact .inl ⟨_, .uninspected hload htarget hmembers⟩
      | ok ms => exact .inr ⟨L, T, _, hload, htarget, by rw [render, hmembers]; rfl⟩

/-- The error that an invocation makes of a stub error. -/
def refusal (jar : Bool) (e : StubError) : RunError :=
  if jar then .build (.generate e) else .stub e

theorem failure_refusal (jar : Bool) (e : StubError) :
    (refusal jar e).failure = Failure.ofStub e := by
  cases jar with
  | false => rfl
  | true => rfl

/-- A named type without a stub is refused before a build begins. -/
theorem packageNamed_refused {σ : Type} {host : Host (StateM σ)} (settings : Settings (StateM σ))
    {name : String} (h : resolveTarget L name = .error e ∨
      ∃ T, resolveTarget L name = .ok T ∧ render L settings.indent T = .error e)
    (destination : Path) (s : σ) :
    packageNamed host settings L name destination s = (.error (.generate e), s) := by
  rcases h with h | ⟨T, htarget, h⟩
  · rw [packageNamed, h]
    rfl
  · rw [packageNamed, htarget]
    exact package_refused settings h s

theorem run_of_unloaded {e : RunError}
    (h : loadLibrary Trial.host options.types trial = (.error e, loaded)) :
    run (machine programs) environment options trial = (.error e, loaded) := by
  rw [run, bind_apply, loadLibrary_machine, h]
  rfl

theorem run_of_loaded (h : loadLibrary Trial.host options.types trial = (.ok L, loaded)) :
    run (machine programs) environment options trial =
      if options.jar then runArchive (machine programs) environment options L loaded
      else runSource (machine programs) options L loaded := by
  rw [run, bind_apply, loadLibrary_machine, h]
  cases options.jar with
  | false => rfl
  | true => rfl

/-- **A stub that cannot be made is refused in both modes**, and all that was done until then is to
look at the path. -/
theorem run_refused (hload : loadLibrary Trial.host options.types trial = (.ok L, loaded))
    (hasked : Trial.host.kind? options.path loaded = (none, asked))
    (h : resolveTarget L options.typeName = .error e ∨
      ∃ T, resolveTarget L options.typeName = .ok T ∧ render L options.indent T = .error e) :
    run (machine programs) environment options trial = (.error (refusal options.jar e), asked) := by
  have hkind : (machine programs).kind? options.path loaded = (none, asked) := hasked
  rw [run_of_loaded hload]
  cases options.jar with
  | false =>
    rw [if_neg Bool.false_ne_true, runSource, bind_apply, hkind]
    dsimp only
    rw [if_neg (by decide), bind_apply, implementNamed_refused h]
    rfl
  | true =>
    have hdirectory : (machine programs).isDirectory options.path loaded = (false, asked) := by
      rw [isDirectory, bind_apply, hkind]
      rfl
    rw [if_pos rfl, runArchive, bind_apply, hdirectory]
    dsimp only
    rw [if_neg Bool.false_ne_true, bind_apply,
      packageNamed_refused (settingsOf (machine programs) environment options) h]
    rfl

/-! ## Invocations for the same stub -/

/-- Two invocations are about the same stub and the same path. They may differ in all else: in what
they make of the stub, and in compiler, class path and scratch directory. -/
structure Options.SameStub (options options' : Options) : Prop where
  types : options'.types = options.types
  typeName : options'.typeName = options.typeName
  indent : options'.indent = options.indent
  path : options'.path = options.path

theorem Options.SameStub.refl (options : Options) : options.SameStub options :=
  ⟨rfl, rfl, rfl, rfl⟩

/-- Without a stub, all invocations for it are refused, and in one state of the machine. -/
theorem run_without_stub (habsent : Absent trial.memory options.path)
    (hload : (loadLibrary Trial.host options.types trial).1 = .ok L)
    (h : resolveTarget L options.typeName = .error e ∨
      ∃ T, resolveTarget L options.typeName = .ok T ∧ render L options.indent T = .error e) :
    ∃ after, trial.Goes [] after ∧ ∀ programs environment options', options.SameStub options' →
      ∃ e', run (machine programs) environment options' trial = (.error e', after) ∧
        e'.failure = Failure.ofStub e := by
  have hgoes := still_loadLibrary options.types trial
  generalize hrun : loadLibrary Trial.host options.types trial = read at hload hgoes
  obtain ⟨answer, loaded⟩ := read
  obtain rfl : answer = .ok L := hload
  have hstill : Absent loaded.memory options.path := by
    rw [hgoes.memory_same]
    exact habsent
  obtain ⟨asked, hasked, hlooked⟩ := kind?_of_absent hstill
  refine ⟨asked, hgoes.trans hlooked, fun programs environment options' hsame => ?_⟩
  rw [← hsame.types] at hrun
  rw [← hsame.path] at hasked
  rw [← hsame.typeName, ← hsame.indent] at h
  exact ⟨_, run_refused hrun hasked h, failure_refusal options'.jar e⟩

/-- **An early failure is the same in both modes**, and leaves all files as they are. -/
theorem run_of_failsEarly (habsent : Absent trial.memory options.path)
    (h : FailsEarly options trial f) :
    ∃ after, trial.Goes [] after ∧ ∀ programs environment options', options.SameStub options' →
      ∃ e, run (machine programs) environment options' trial = (.error e, after) ∧
        e.failure = f := by
  cases h with
  | @unloaded e hload =>
    refine ⟨_, still_loadLibrary options.types trial, fun programs environment options' hsame =>
      ⟨e, run_of_unloaded ?_, rfl⟩⟩
    rw [hsame.types]
    exact Prod.ext hload rfl
  | unresolved hload htarget => exact run_without_stub habsent hload (.inl htarget)
  | uninspected hload htarget hmembers =>
    exact run_without_stub habsent hload
      (.inr ⟨_, htarget, render_of_members_error hmembers _⟩)

/-! ## Runs that have a source -/

section

variable {σ : Type} (host : Host (StateM σ)) (htarget : resolveTarget L options.typeName = .ok T)
  (hsource : render L options.indent T = .ok source)

include htarget hsource

theorem runArchive_errors : Errors Late (runArchive host environment options L) := by
  refine errors_bind fun directory => ?_
  cases directory with
  | true => exact errors_error rfl
  | false =>
    have hpackage : Errors AfterRendering (packageNamed host (settingsOf host environment options)
        L options.typeName options.path) := by
      rw [packageNamed, htarget]
      exact package_errors host (settingsOf host environment options) hsource _
    exact hpackage.bind (fun e he => errors_error (late_of_afterRendering he)) fun report =>
      errors_ok _

theorem runSource_errors : Errors Late (runSource host options L) := by
  refine errors_bind fun kind => ?_
  split
  · exact errors_error rfl
  · have hwrite : Errors AboutFiles
        (implementNamed host L options.indent options.path options.typeName) := by
      rw [implementNamed, htarget]
      dsimp only [implement]
      rw [hsource]
      exact writeSource_errors host _ _ _
    exact hwrite.bind (fun e he => errors_error (Failure.isEarly_ofStub he)) fun path => errors_ok _

end

/-- **With a source, no mode fails in the ways in which early failures do.** -/
theorem run_of_hasSource (h : HasSource options trial L T source) {e : RunError}
    (he : (run (machine programs) environment options trial).1 = .error e) : Late e := by
  rw [run_of_loaded (Prod.ext h.loads rfl)] at he
  split at he
  · exact runArchive_errors _ h.resolves h.renders _ e he
  · exact runSource_errors _ h.resolves h.renders _ e he

/-- An invocation fails with an exit code. -/
def FailsWith (host : Host (StateM Trial)) (environment : String → Option String)
    (options : Options) (trial : Trial) (code : Nat) : Prop :=
  ∃ e, (run host environment options trial).1 = .error e ∧ e.exitCode = code

theorem failsWith_iff_of_run {host : Host (StateM Trial)} {after : Trial} {e : RunError}
    (h : run host environment options trial = (.error e, after)) :
    FailsWith host environment options trial code ↔ e.exitCode = code := by
  unfold FailsWith
  rw [h]
  constructor
  · rintro ⟨e', he', hcode⟩
    rw [Except.error.inj he']
    exact hcode
  · exact fun hcode => ⟨e, rfl, hcode⟩

theorem not_failsWith_of_hasSource (h : HasSource options trial L T source)
    (hcode : code ∈ [3, 4, 9]) :
    ¬ FailsWith (machine programs) environment options trial code := by
  rintro ⟨e, he, rfl⟩
  have hlate : e.failure.isEarly = false := run_of_hasSource h he
  rw [(Failure.isEarly_iff _).mpr hcode] at hlate
  cases hlate

theorem Options.SameStub.hasSource (hsame : options.SameStub options')
    (h : HasSource options trial L T source) : HasSource options' trial L T source where
  loads := by rw [hsame.types, h.loads]
  resolves := by rw [hsame.typeName, h.resolves]
  renders := by rw [hsame.indent, h.renders]

/-- **Both modes agree on what goes wrong before anything is written.** Let nothing stand at the path.
If the library is not loaded, the type is not resolved or is no target, all invocations for the stub
fail with one exit code and one label, whatever their mode and their settings. No file is touched, and
no program is run: the machine is left in one state, whatever programs would make of it. And an
invocation that fails with the exit code of such a failure does so in the other mode, with other
settings and other programs, as well. -/
theorem modes_agree (habsent : Absent trial.memory options.path) :
    (∀ f, FailsEarly options trial f → ∃ after, after.memory = trial.memory ∧
      after.passed = trial.passed ∧ ∀ programs environment options', options.SameStub options' →
        ∃ e, run (machine programs) environment options' trial = (.error e, after) ∧
          e.exitCode = f.exitCode ∧ e.category = f.label) ∧
    ∀ code ∈ [3, 4, 9], ∀ programs programs' environment environment' options',
      options.SameStub options' →
        (FailsWith (machine programs) environment options trial code ↔
          FailsWith (machine programs') environment' options' trial code) := by
  constructor
  · intro f hf
    obtain ⟨after, hgoes, hruns⟩ := run_of_failsEarly habsent hf
    refine ⟨after, hgoes.memory_same, hgoes.passed_same, fun programs environment options' hsame => ?_⟩
    obtain ⟨e, hrun, hfailure⟩ := hruns programs environment options' hsame
    exact ⟨e, hrun, congrArg Failure.exitCode hfailure, congrArg Failure.label hfailure⟩
  · intro code hcode programs programs' environment environment' options' hsame
    rcases failsEarly_or_hasSource options trial with ⟨f, hf⟩ | ⟨L, T, source, hsource⟩
    · obtain ⟨after, -, hruns⟩ := run_of_failsEarly habsent hf
      obtain ⟨e, hrun, hfailure⟩ := hruns programs environment options (.refl options)
      obtain ⟨e', hrun', hfailure'⟩ := hruns programs' environment' options' hsame
      rw [failsWith_iff_of_run hrun, failsWith_iff_of_run hrun', RunError.exitCode,
        RunError.exitCode, hfailure, hfailure']
    · exact iff_of_false (not_failsWith_of_hasSource hsource hcode)
        (not_failsWith_of_hasSource (hsame.hasSource hsource) hcode)

/-- An invocation with one library file. -/
def forShape : Options where
  typeName := "a.Shape"
  path := ⟨"out"⟩
  types := [⟨"a.xml"⟩]

/-- Without its library file, an invocation fails with exit code 9 in both modes. -/
theorem modes_agree_missing :
    Absent atWork.memory forShape.path ∧ ∃ after, after.memory = atWork.memory ∧
      after.passed = [] ∧ ∀ programs environment jar javac?, ∃ e,
        run (machine programs) environment { forShape with jar, javac? } atWork
          = (.error e, after) ∧ e.exitCode = 9 ∧ e.category = "type library error" := by
  have habsent : Absent atWork.memory forShape.path :=
    ⟨.system Errno.noEntry, by decide +kernel⟩
  have hload : (loadLibrary Trial.host forShape.types atWork).1
      = .error (.library ⟨"a.xml"⟩ (.io (.system Errno.noEntry))) := by decide +kernel
  obtain ⟨after, hmemory, hpassed, hruns⟩ := (modes_agree habsent).1 .library (.unloaded hload)
  exact ⟨habsent, after, hmemory, hpassed, fun programs environment jar javac? =>
    hruns programs environment { forShape with jar, javac? } ⟨rfl, rfl, rfl, rfl⟩⟩

end Stubwright.CommandLine

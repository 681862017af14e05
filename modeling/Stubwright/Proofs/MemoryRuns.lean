import Stubwright.CommandLine.Run
import Stubwright.Proofs.Agreement

/-!
# Runs in memory

    options ──run, in memory──▶ outcome, memory
    options ──run, every turn works──▶ outcome, memory

What is shown of the machine on which operations may fail is meant for every machine. Main statement
(`run_matches`): it takes in the machine in memory, on which nothing fails. For every invocation and
every state of the memory there are turns, all of which work, such that the invocation ends in the same
way and leaves the same files. So nothing is said of a machine that does not exist, and what holds
whichever operations fail holds in memory too.

The programs are followed by their text, from the operations up; each step of a program matches, so the
program does.
-/

namespace Stubwright

open Host Trial

/-! ## Files and directories -/

namespace Host

theorem isDirectory_matches (p : Path) :
    Matches (Trial.host.isDirectory p) (Memory.host.isDirectory p) :=
  (kind?_matches p).bind fun _ => .pure _

theorem isFile_matches (p : Path) : Matches (Trial.host.isFile p) (Memory.host.isFile p) :=
  (kind?_matches p).bind fun _ => .pure _

theorem ensureDirectory_matches (p : Path) :
    Matches (Trial.host.ensureDirectory p) (Memory.host.ensureDirectory p) := by
  refine (makeDirectory_matches p).attempt (fun e => ?_) fun u => .pure _
  exact (isDirectory_matches p).bind fun _ => .pure _

theorem makeDirectories_matches (p : Path) :
    Matches (Trial.host.makeDirectories p) (Memory.host.makeDirectories p) := by
  induction hlength : p.text.toList.length using Nat.strongRecOn generalizing p with
  | _ length ih =>
  rw [makeDirectories_eq, makeDirectories_eq]
  split
  · exact .pure _
  · refine (makeDirectory_matches p).attempt (fun e => ?_) fun u => .pure _
    dsimp only
    split
    · cases hparent : p.parent? with
      | none => exact .pure _
      | some parent =>
        refine (ih _ (hlength ▸ Path.length_parent? hparent) parent rfl).attempt (fun e => .pure _) ?_
        exact fun u => ensureDirectory_matches p
    · exact (isDirectory_matches p).bind fun _ => .pure _

theorem readAll_matches (p : Path) : Matches (Trial.host.readAll p) (Memory.host.readAll p) := by
  refine (read_matches p chunkSize).attempt (fun e => .pure _) fun reads => ?_
  dsimp only
  split
  · exact .pure _
  · exact .pure _

theorem readText_matches (p : Path) : Matches (Trial.host.readText p) (Memory.host.readText p) := by
  refine (readAll_matches p).attempt (fun e => .pure _) fun bytes => ?_
  dsimp only
  split
  · exact .pure _
  · exact .pure _

end Host

/-! ## Writing sources -/

namespace Stub

variable (L : Library) (indent : Nat) (root path : Path) (target : Java.Descriptor)

theorem preparePath_matches :
    Matches (preparePath Trial.host root target) (preparePath Memory.host root target) :=
  (makeDirectories_matches _).attempt (fun _ => .pure _) fun _ => .pure _

theorem writeAtOnce_matches (content : Bytes) :
    Matches (writeAtOnce Trial.host path content) (writeAtOnce Memory.host path content) := by
  refine (stage_matches _).attempt (fun e => .pure _) fun staged => ?_
  refine (append_matches staged content).attempt (fun e => ?_) fun u => ?_
  · exact (discard_matches staged).bind fun _ => .pure _
  refine (rename_matches staged path).attempt (fun e => ?_) fun u => .pure _
  exact (discard_matches staged).bind fun _ => .pure _

theorem writeSource_matches (source : Source) :
    Matches (writeSource Trial.host root target source)
      (writeSource Memory.host root target source) := by
  refine (preparePath_matches root target).attempt (fun e => .pure _) fun path => ?_
  exact (writeAtOnce_matches path _).attempt (fun e => .pure _) fun u => .pure _

theorem implementNamed_matches (name : String) :
    Matches (implementNamed Trial.host L indent root name)
      (implementNamed Memory.host L indent root name) := by
  unfold implementNamed implement
  split
  · exact .pure _
  · split
    · exact .pure _
    · exact writeSource_matches root _ _

end Stub

/-! ## Writing archives -/

namespace Archive

variable (compression : Compression) (destination : Path) (manifest : Manifest) (entry : Entry)

theorem fill_matches :
    Matches (fill Trial.host compression destination manifest entry)
      (fill Memory.host compression destination manifest entry) := by
  refine (append_matches destination _).attempt (fun e => .pure _) fun u => ?_
  dsimp only
  split
  · exact .pure _
  split
  · exact .pure _
  refine (readAll_matches entry.source).attempt (fun e => .pure _) fun content => ?_
  dsimp only
  split
  · exact .pure _
  refine (append_matches destination _).attempt (fun e => .pure _) fun u => ?_
  exact (append_matches destination _).attempt (fun e => .pure _) fun u => .pure _

theorem write_matches :
    Matches (write Trial.host compression destination manifest entry)
      (write Memory.host compression destination manifest entry) := by
  refine (isFile_matches entry.source).bind fun found => ?_
  cases found with
  | false => exact .pure _
  | true =>
    refine (makeDirectories_matches _).attempt (fun e => .pure _) fun u => ?_
    refine (stage_matches _).attempt (fun e => .pure _) fun staged => ?_
    refine (fill_matches compression staged manifest entry).attempt (fun e => ?_) fun u => ?_
    · exact (discard_matches staged).bind fun _ => .pure _
    refine (rename_matches staged destination).attempt (fun e => ?_) fun u => .pure _
    exact (discard_matches staged).bind fun _ => .pure _

end Archive

/-! ## Builds -/

namespace Build

open Stub

theorem javac_matches (program : Path) (extra : List String) (source : Path) (classPath : ClassPath) :
    Matches (javac Trial.host program extra source classPath)
      (javac Memory.host program extra source classPath) := by
  unfold javac
  split
  · exact .pure _
  · exact (run_matches program _).attempt (fun e => .pure _) fun result => .pure _

/-- Settings for both machines that are the same but for the machine. -/
structure SameSettings (settings : Settings (StateM Trial)) (inMemory : Settings (StateM Memory)) :
    Prop where
  compiler : ∀ source classPath,
    Matches (settings.compiler source classPath) (inMemory.compiler source classPath)
  writer : ∀ destination manifest entry,
    Matches (settings.writer destination manifest entry) (inMemory.writer destination manifest entry)
  scratchParent : settings.scratchParent = inMemory.scratchParent
  inherited : settings.inherited? = inMemory.inherited?
  classPath : settings.classPath = inMemory.classPath
  indent : settings.indent = inMemory.indent

variable {settings : Settings (StateM Trial)} {inMemory : Settings (StateM Memory)}

theorem compile_matches (h : SameSettings settings inMemory) (scratch source : Path) :
    Matches (compile Trial.host settings scratch source)
      (compile Memory.host inMemory scratch source) := by
  unfold compile
  rw [h.inherited, h.classPath]
  refine (h.compiler source _).attempt (fun e => .pure _) fun status => ?_
  dsimp only
  split
  · exact .pure _
  · refine (isFile_matches _).bind fun found => ?_
    cases found with
    | false => exact .pure _
    | true => exact .pure _

theorem buildIn_matches (h : SameSettings settings inMemory) (target : Java.Descriptor)
    (source : Source) (destination scratch : Path) :
    Matches (buildIn Trial.host settings target source destination scratch)
      (buildIn Memory.host inMemory target source destination scratch) := by
  refine (writeSource_matches scratch target source).attempt (fun e => .pure _) fun sourceFile => ?_
  refine (compile_matches h scratch sourceFile).attempt (fun e => .pure _) fun classFile => ?_
  exact (h.writer destination _ _).attempt (fun e => .pure _) fun u => .pure _

theorem packageNamed_matches (h : SameSettings settings inMemory) (L : Library) (name : String)
    (destination : Path) :
    Matches (packageNamed Trial.host settings L name destination)
      (packageNamed Memory.host inMemory L name destination) := by
  unfold packageNamed
  split
  · exact .pure _
  · unfold package
    rw [h.indent, h.scratchParent]
    split
    · exact .pure _
    · refine (makeScratch_matches _).attempt (fun e => .pure _) fun scratch => ?_
      refine (buildIn_matches h _ _ destination scratch).attempt (fun e => ?_) fun artifact => ?_
      · exact (removeTree_matches scratch).bind fun _ => .pure _
      exact (removeTree_matches scratch).attempt (fun e => .pure _) fun u => .pure _

end Build

/-! ## Invocations -/

namespace CommandLine

open Build

theorem ofFile_matches (path : Path) :
    Matches (Library.ofFile Trial.host path) (Library.ofFile Memory.host path) :=
  (readText_matches path).attempt (fun _ => .pure _) fun _ => .pure _

theorem loadFiles_matches (c : Catalog) (paths : List Path) :
    Matches (loadFiles Trial.host c paths) (loadFiles Memory.host c paths) := by
  induction paths generalizing c with
  | nil => exact .pure _
  | cons path paths ih =>
    refine (ofFile_matches path).attempt (fun e => .pure _) fun read => ?_
    dsimp only
    split
    · exact .pure _
    · exact ih _

theorem loadLibrary_matches (paths : List Path) :
    Matches (loadLibrary Trial.host paths) (loadLibrary Memory.host paths) := by
  refine (loadFiles_matches _ paths).attempt (fun e => .pure _) fun c => ?_
  dsimp only
  split
  · exact .pure _
  · exact .pure _

theorem sameSettings_settingsOf (environment : String → Option String) (options : Options) :
    SameSettings (settingsOf Trial.host environment options)
      (settingsOf Memory.host environment options) where
  compiler := javac_matches _ _
  writer := Archive.write_matches _
  scratchParent := rfl
  inherited := rfl
  classPath := rfl
  indent := rfl

/-- **What an invocation does in memory, it does where operations may fail, if none does.** -/
theorem run_matches (environment : String → Option String) (options : Options) :
    Matches (run Trial.host environment options) (run Memory.host environment options) := by
  refine (loadLibrary_matches options.types).attempt (fun e => .pure _) fun L => ?_
  dsimp only
  split
  · refine (isDirectory_matches options.path).bind fun found => ?_
    cases found with
    | true => exact .pure _
    | false =>
      have hsame := sameSettings_settingsOf environment options
      exact (packageNamed_matches hsame L _ _).attempt (fun e => .pure _) fun report => .pure _
  · refine (kind?_matches options.path).bind fun kind => ?_
    split
    · exact .pure _
    · refine (Stub.implementNamed_matches L _ _ _).attempt (fun e => .pure _) ?_
      exact fun path => .pure _

end CommandLine
end Stubwright

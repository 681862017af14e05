import Stubwright.Archive.Writer
import Stubwright.Proofs.Containers
import Stubwright.Proofs.FileWrites

/-!
# What writing an archive does to the files

    class file ──read──▶ records ──append──▶ staged file ──rename──▶ archive

The container is written in parts to a file beside the destination, and these parts make up its
encoding (`fill_cases`). As the class file is read after other files were created, it is shown that it
is still the one that was there before. Names and contents whose sizes do not fit the format are
refused, so that what was written is read back (`isArchive`). An archive is complete, or nothing but
directories on the way to it is new (`write_cases`, `write_exact`).
-/

namespace Stubwright.Archive

open Host FileTree Trial

variable {trial : Trial} {before : FileTree} {p : Path} {content : Bytes} {executable : Bool}

/-- The bytes of the archive of a class file. -/
def archiveBytes (compression : Compression) (manifest : Manifest) (name : String)
    (content : Bytes) : Bytes :=
  Container.encode [manifestMember compression manifest, ⟨name, compression, content⟩]

theorem encode_pair (first second : Member) :
    Container.encode [first, second] = Container.localRecord first ++ Container.localRecord second
      ++ Container.trailer [first, second] := by
  simp [Container.encode, Container.records]

/-- The bytes are the archive of a class file, and its two members are read back from them. -/
structure IsArchive (compression : Compression) (manifest : Manifest) (name : String)
    (content : Bytes) (bytes : Bytes) : Prop where
  encoded : bytes = archiveBytes compression manifest name content
  apart : name ≠ Manifest.entryName
  decoded : Container.decode? bytes
    = some [manifestMember compression manifest, ⟨name, compression, content⟩]

/-- What the checks let through is read back. -/
theorem isArchive {compression : Compression} {manifest : Manifest} {name : String}
    (hapart : ¬ (name == Manifest.entryName) = true) (hname : ¬ nameLimit ≤ name.utf8ByteSize)
    (hsize : ¬ sizeLimit ≤ (archiveBytes compression manifest name content).length) :
    IsArchive compression manifest name content
      (archiveBytes compression manifest name content) := by
  refine ⟨rfl, by simpa using hapart, Container.decode?_encode fun m hm => ?_⟩
  have hdata : (Container.pack m.compression m.content).length < 0x100000000 :=
    Nat.lt_of_le_of_lt (Container.length_pack_le hm) (Nat.not_le.mp hsize)
  refine ⟨?_, hdata⟩
  rcases List.mem_pair.mp hm with rfl | rfl
  · show (Text.utf8 Manifest.entryName).length < 0x10000
    decide
  · rw [Text.length_utf8]
    exact Nat.not_le.mp hname

/-- What stood somewhere before a file was staged is read from there. -/
theorem content_eq_of_staged {base place : Place} {content' part : Bytes} {executable' : Bool}
    {source : Path} {t : FileTree} (h : Staged base p part before t)
    (hsource : before.get? (placeOf base source) = some (.file content executable))
    (hfound : t.find base source = .ok (place, .file content' executable')) : content' = content := by
  have hne : placeOf base source ≠ placeOf base p := by
    intro heq
    rw [heq, h.fresh] at hsource
    cases hsource
  have hnow := (placeOf_of_find hfound).2
  rw [h.elsewhere _ hne, hsource] at hnow
  cases hnow
  rfl

/-- **A staged file is filled with the archive**, or filling it fails. -/
theorem fill_cases (compression : Compression) (manifest : Manifest) (entry : Entry)
    (h : Staged trial.memory.base p [] before trial.memory.tree)
    (hsource : before.get? (placeOf trial.memory.base entry.source)
      = some (.file content executable)) :
    Filling (IsArchive compression manifest entry.name content) before p
      (fill Trial.host compression p manifest entry) trial := by
  unfold fill
  refine .append h _ (fun e _ => .failed _ _) fun first hbase hfirst => ?_
  dsimp only
  split
  · exact .failed _ _
  next hapart =>
  split
  · exact .failed _ _
  next hname =>
  refine .readAll entry.source (fun e _ => .failed _ _) fun read place content' _ hread hfound => ?_
  -- the class file is the one that was there before the staged file
  rw [← hbase] at hsource
  obtain rfl : content' = content := content_eq_of_staged hfirst hsource hfound
  dsimp only
  split
  · exact .failed _ _
  next hsize =>
  rw [← hread] at hfirst
  refine .append hfirst _ (fun e _ => .failed _ _) fun second _ hsecond => ?_
  refine .append hsecond _ (fun e _ => .failed _ _) fun third _ hthird => ?_
  refine .done (isArchive hapart hname hsize) ?_
  rw [archiveBytes, encode_pair]
  exact hthird

theorem write_eq {m : Type → Type} [Monad m] (host : Host m) (compression : Compression)
    (destination : Path) (manifest : Manifest) (entry : Entry) :
    write host compression destination manifest entry = (do
      if !(← host.isFile entry.source) then return .error (.missingArtifact entry.source)
      match ← host.makeDirectories (directoryOf destination) with
      | .error e => return .error (.io (directoryOf destination) e)
      | .ok () =>
        writeBeside host (directoryOf destination) destination (.io (directoryOf destination))
          (.io destination) fun staged => fill host compression staged manifest entry) := by
  unfold write writeBeside
  refine bind_congr fun found => ?_
  cases found with
  | false => rfl
  | true =>
    refine bind_congr fun made => ?_
    cases made with
    | error e => rfl
    | ok u =>
      refine bind_congr fun staged => ?_
      cases staged with
      | error e => rfl
      | ok staged =>
        refine bind_congr fun filled => ?_
        cases filled <;> rfl

/-- What writing an archive does: it fails and only adds directories on the way to the destination, or
the archive of the file that was there before is at its destination. -/
structure WritesArchive (compression : Compression) (destination : Path) (manifest : Manifest)
    (entry : Entry) (trial : Trial) (answer : Except ArchiveError Unit) (after : Trial) : Prop where
  base : after.memory.base = trial.memory.base
  failed : ∀ e, answer = .error e →
    Grown (stations trial.memory.base (directoryOf destination)) trial.memory.tree
      after.memory.tree
  done : answer = .ok () → ∃ content executable,
    trial.memory.tree.get? (placeOf trial.memory.base entry.source)
        = some (.file content executable) ∧
      Placed (stations trial.memory.base (directoryOf destination)) trial.memory.base destination
        (archiveBytes compression manifest entry.name content) trial.memory.tree after.memory.tree
  archived : answer = .ok () → ∃ place content executable,
    trial.memory.tree.find trial.memory.base entry.source
        = .ok (place, .file content executable) ∧
      IsArchive compression manifest entry.name content
        (archiveBytes compression manifest entry.name content)
  passed : ∃ trees, Goes trial trees after ∧ ∀ content executable,
    trial.memory.tree.get? (placeOf trial.memory.base entry.source)
        = some (.file content executable) →
      (∀ draw, (placeOf trial.memory.base destination).getLast?
        ≠ some (stagingStem ++ Memory.padded draw)) →
      ∀ t ∈ trees, Underway (stations trial.memory.base (directoryOf destination))
        (placeOf trial.memory.base destination)
        (archiveBytes compression manifest entry.name content) trial.memory.tree t

/-- An archive is written as a whole or not at all, whichever steps fail. -/
theorem write_cases (compression : Compression) (destination : Path) (manifest : Manifest)
    (entry : Entry) (trial : Trial) :
    ∃ answer after, write Trial.host compression destination manifest entry trial
        = (answer, after) ∧
      WritesArchive compression destination manifest entry trial answer after := by
  rw [write_eq, bind_apply]
  obtain ⟨answer, asked, hrun, hgoes, hfile⟩ := isFile_cases trial entry.source
  rw [hrun]
  cases answer with
  | false =>
    refine ⟨_, asked, rfl, hgoes.base, fun _ _ => ?_, nofun, nofun, [], hgoes,
      fun _ _ _ _ => List.forall_mem_nil _⟩
    rw [hgoes.tree_same]
    exact .refl _ _
  | true =>
    obtain ⟨place, content, executable, hfound⟩ := hfile rfl
    have hsource := (placeOf_of_find hfound).2
    obtain ⟨answer, trees, prepared, hrun, hmakes⟩ :=
      makeDirectories_cases asked (directoryOf destination)
    have hmakes := hmakes.after_asking hgoes
    show ∃ answer after, (Trial.host.makeDirectories (directoryOf destination) >>= _) asked
      = (answer, after) ∧ _
    rw [bind_apply, hrun]
    cases answer with
    | error e =>
      exact ⟨_, prepared, rfl, hmakes.goes.base, fun _ _ => hmakes.grown_after, nofun, nofun, trees,
        hmakes.goes, fun _ _ _ _ t ht => .of_grown (hmakes.grown t ht)⟩
    | ok u =>
      obtain ⟨answer, trees', after, hrun, hwrites⟩ := writeBeside_cases prepared
        (directoryOf destination) destination (ArchiveError.io (directoryOf destination))
        (ArchiveError.io destination) (fun staged => fill Trial.host compression staged manifest entry)
        (fun p opened hopened hstaged => fill_cases compression manifest entry hstaged (by
          rw [hopened, hmakes.goes.base]
          exact hmakes.grown_after.get?_eq hsource))
      have hdelivers := Delivers.of_made hmakes hwrites
      refine ⟨answer, after, hrun, hdelivers.goes.base, hdelivers.failed, fun hanswer => ?_,
        fun hanswer => ?_, trees ++ trees', hdelivers.goes, fun content' executable' hsource' => ?_⟩
      · obtain ⟨bytes, harchive, hplaced⟩ := hdelivers.done hanswer
        exact ⟨content, executable, hsource, harchive.encoded ▸ hplaced⟩
      · obtain ⟨bytes, harchive, -⟩ := hdelivers.done hanswer
        exact ⟨place, content, executable, hfound, harchive.encoded ▸ harchive⟩
      · rw [hsource] at hsource'
        cases hsource'
        exact hdelivers.passed _ fun _ => IsArchive.encoded

/-- What writing an archive may do to a machine. -/
structure Exact (compression : Compression) (destination : Path) (manifest : Manifest)
    (entry : Entry) (trial : Trial) (answer : Except ArchiveError Unit) (after : Trial) : Prop where
  /-- A failure leaves no more than directories on the way to the destination. -/
  failed : ∀ e, answer = .error e →
    Grown (stations trial.memory.base (directoryOf destination)) trial.memory.tree
      after.memory.tree
  /-- A success leaves a container of two members, the manifest and the file that was there before,
  directories on the way, and all else as it was. -/
  done : answer = .ok () → ∃ place content executable bytes,
    trial.memory.tree.find trial.memory.base entry.source
        = .ok (place, .file content executable) ∧
      Container.decode? bytes = some [⟨Manifest.entryName, compression, Text.utf8 manifest.render⟩,
        ⟨entry.name, compression, content⟩] ∧
      entry.name ≠ Manifest.entryName ∧
      Placed (stations trial.memory.base (directoryOf destination)) trial.memory.base destination
        bytes trial.memory.tree after.memory.tree
  /-- In each tree on the way, what stands at the destination is as it was or complete, unless the
  destination is called like a staged file. -/
  meanwhile : ∃ trees, Goes trial trees after ∧ ∀ place content executable,
    trial.memory.tree.find trial.memory.base entry.source
        = .ok (place, .file content executable) →
      (∀ draw, (placeOf trial.memory.base destination).getLast?
        ≠ some (stagingStem ++ Memory.padded draw)) →
      ∀ t ∈ trees, Underway (stations trial.memory.base (directoryOf destination))
        (placeOf trial.memory.base destination)
        (archiveBytes compression manifest entry.name content) trial.memory.tree t

/-- **An archive is written exactly or not at all**, whichever operations fail. -/
theorem write_exact (compression : Compression) (destination : Path) (manifest : Manifest)
    (entry : Entry) (trial : Trial) :
    Exact compression destination manifest entry trial
      (write Trial.host compression destination manifest entry trial).1
      (write Trial.host compression destination manifest entry trial).2 := by
  obtain ⟨answer, after, hrun, hwrites⟩ := write_cases compression destination manifest entry trial
  rw [hrun]
  refine ⟨hwrites.failed, fun hanswer => ?_, ?_⟩
  · obtain ⟨place, content, executable, hfound, harchive⟩ := hwrites.archived hanswer
    obtain ⟨content', executable', hsource, hplaced⟩ := hwrites.done hanswer
    rw [(placeOf_of_find hfound).2] at hsource
    cases hsource
    exact ⟨place, content, executable, _, hfound, harchive.decoded, harchive.apart, hplaced⟩
  · obtain ⟨trees, hgoes, hunderway⟩ := hwrites.passed
    exact ⟨trees, hgoes, fun place content executable hfound =>
      hunderway content executable (placeOf_of_find hfound).2⟩

/-- A machine with one file. -/
def oneClass : Memory :=
  { Memory.atPlace ["w"] with
    tree := (Memory.atPlace ["w"]).tree.set ["w", "A.class"] (.file [1, 2, 3] false) }

theorem write_exact_oneClass :
    (write Trial.host .stored ⟨"out/a.jar"⟩ ⟨"A"⟩ ⟨"A.class", ⟨"A.class"⟩⟩
        { memory := oneClass }).1 = .ok () ∧
      Exact .stored ⟨"out/a.jar"⟩ ⟨"A"⟩ ⟨"A.class", ⟨"A.class"⟩⟩ { memory := oneClass }
        (write Trial.host .stored ⟨"out/a.jar"⟩ ⟨"A"⟩ ⟨"A.class", ⟨"A.class"⟩⟩
          { memory := oneClass }).1
        (write Trial.host .stored ⟨"out/a.jar"⟩ ⟨"A"⟩ ⟨"A.class", ⟨"A.class"⟩⟩
          { memory := oneClass }).2 :=
  ⟨by decide +kernel, write_exact _ _ _ _ _⟩

end Stubwright.Archive

import Stubwright.Host.Directories
import Stubwright.Host.Trial
import Stubwright.Proofs.Entries
import Stubwright.Proofs.FileReads

/-!
# Steps of a machine on which operations fail

    trial ──operation──▶ answer, trial that went through some trees

For each operation it is said once what can befall it, in terms of the tree before: the answer, the
trees passed through, and what is known of them if the operation worked. `Goes` ties the states of
the machine to the trees, so that several operations in a row go through the trees of all of them
(`Goes.trans`).

`makeDirectories` is the first program above the operations: whichever of its steps fail, it adds
nothing but directories, at stations of its path (`makeDirectories_cases`).
-/

namespace Stubwright.Host

open FileTree

namespace Trial

/-- The machine goes through the trees, and the last of them stays. -/
structure Goes (trial : Trial) (trees : List FileTree) (after : Trial) : Prop where
  base : after.memory.base = trial.memory.base
  tree : after.memory.tree = trees.getLastD trial.memory.tree
  passed : after.passed = trial.passed ++ trees

namespace Goes

variable {trial after later : Trial} {trees trees' : List FileTree}

theorem refl (trial : Trial) : Goes trial [] trial := ⟨rfl, rfl, (List.append_nil _).symm⟩

theorem trans (h : Goes trial trees after) (h' : Goes after trees' later) :
    Goes trial (trees ++ trees') later := by
  refine ⟨h'.base.trans h.base, ?_, ?_⟩
  · rw [h'.tree, h.tree]
    cases trees' with
    | nil => rw [List.append_nil, List.getLastD_nil]
    | cons t trees' => simp [List.getLastD_eq_getLast?]
  · rw [h'.passed, h.passed, List.append_assoc]

/-- What holds of the tree before and of the trees passed through holds of the tree after. -/
theorem last (h : Goes trial trees after) {P : FileTree → Prop} (hstart : P trial.memory.tree)
    (htrees : ∀ t ∈ trees, P t) : P after.memory.tree := by
  rw [h.tree]
  cases trees with
  | nil => exact hstart
  | cons t trees =>
    rw [List.getLastD_cons]
    exact htrees _ List.getLastD_mem_cons

/-- An operation that goes through one tree ends with it. -/
theorem tree_eq {t : FileTree} (h : Goes trial [t] after) : after.memory.tree = t := h.tree

theorem tree_same (h : Goes trial [] after) : after.memory.tree = trial.memory.tree := h.tree

theorem memory_same (h : Goes trial [] after) : after.memory = trial.memory :=
  congrArg₂ Memory.mk h.tree_same h.base

theorem passed_same (h : Goes trial [] after) : after.passed = trial.passed := by
  rw [h.passed, List.append_nil]

end Goes

/-! ## Operations -/

/-- The next operation works, with this number for a fresh name. -/
def Works (trial : Trial) (draw : Nat) : Prop := trial.turns.headD (.works 0) = .works draw

variable (trial : Trial)

theorem perform_goes {α : Type} (act : Turn → Memory → α × List FileTree) :
    ∃ after, perform act trial = ((act (trial.turns.headD (.works 0)) trial.memory).1, after) ∧
      Goes trial (act (trial.turns.headD (.works 0)) trial.memory).2 after :=
  ⟨_, rfl, rfl, rfl, rfl⟩

/-- An operation in one step is done, or it fails and does nothing. -/
theorem step_cases (f : FileTree → Place → Except IoError FileTree) :
    (∃ e after, perform (step f) trial = (.error e, after) ∧ Goes trial [] after) ∨
    ∃ t after, perform (step f) trial = (.ok (), after) ∧ Goes trial [t] after ∧
      f trial.memory.tree trial.memory.base = .ok t := by
  obtain ⟨after, hrun, hgoes⟩ := perform_goes trial (step f)
  rw [hrun]
  cases hturn : trial.turns.headD (.works 0) with
  | refused e =>
    rw [hturn] at hgoes
    exact .inl ⟨e, after, rfl, hgoes⟩
  | broken reached e =>
    rw [hturn] at hgoes
    exact .inl ⟨e, after, rfl, hgoes⟩
  | works draw =>
    rw [hturn] at hgoes
    simp only [step] at hgoes ⊢
    cases hf : f trial.memory.tree trial.memory.base with
    | error e =>
      rw [hf] at hgoes
      exact .inl ⟨e, after, rfl, hgoes⟩
    | ok t =>
      rw [hf] at hgoes
      exact .inr ⟨t, after, rfl, hgoes, rfl⟩

/-- Something of a fresh name is created, or nothing is done. -/
theorem createFresh_cases (stem : String) (directory : Path)
    (create : FileTree → Place → Path → Except IoError FileTree) :
    (∃ e after, perform (createFresh stem directory create) trial = (.error e, after) ∧
      Goes trial [] after) ∨
    ∃ draw t after, trial.turns.headD (.works 0) = .works draw ∧
      perform (createFresh stem directory create) trial =
        (.ok (freshPath trial.memory stem directory draw), after) ∧ Goes trial [t] after ∧
      create trial.memory.tree trial.memory.base (freshPath trial.memory stem directory draw)
        = .ok t := by
  obtain ⟨after, hrun, hgoes⟩ := perform_goes trial (createFresh stem directory create)
  rw [hrun]
  cases hturn : trial.turns.headD (.works 0) with
  | refused e =>
    rw [hturn] at hgoes
    exact .inl ⟨e, after, rfl, hgoes⟩
  | broken reached e =>
    rw [hturn] at hgoes
    exact .inl ⟨e, after, rfl, hgoes⟩
  | works draw =>
    rw [hturn] at hgoes
    simp only [createFresh] at hgoes ⊢
    cases hcreate : create trial.memory.tree trial.memory.base
        (freshPath trial.memory stem directory draw) with
    | error e =>
      rw [hcreate] at hgoes
      exact .inl ⟨_, after, rfl, hgoes⟩
    | ok t =>
      rw [hcreate] at hgoes
      exact .inr ⟨draw, t, after, rfl, rfl, hgoes, hcreate⟩

theorem makeDirectory_cases (p : Path) :
    (∃ e after, host.makeDirectory p trial = (.error e, after) ∧ Goes trial [] after) ∨
    ∃ t after, host.makeDirectory p trial = (.ok (), after) ∧ Goes trial [t] after ∧
      trial.memory.tree.makeDirectory trial.memory.base p = .ok t :=
  step_cases trial fun tree base => tree.makeDirectory base p

theorem rename_cases (p q : Path) :
    (∃ e after, host.rename p q trial = (.error e, after) ∧ Goes trial [] after) ∨
    ∃ t after, host.rename p q trial = (.ok (), after) ∧ Goes trial [t] after ∧
      trial.memory.tree.rename trial.memory.base p q = .ok t :=
  step_cases trial fun tree base => tree.rename base p q

/-- Asking changes nothing, and what is said to be there is there. -/
theorem kind?_cases (p : Path) :
    ∃ answer after, host.kind? p trial = (answer, after) ∧ Goes trial [] after ∧
      ∀ kind, answer = some kind →
        ∃ place node, trial.memory.tree.find trial.memory.base p = .ok (place, node) ∧
          (kind = .directory ↔ node = .directory) := by
  obtain ⟨after, hrun, hgoes⟩ : ∃ after, host.kind? p trial = (_, after) ∧ Goes trial _ after := by
    dsimp only [host]
    exact perform_goes trial _
  rw [hrun]
  cases hturn : trial.turns.headD (.works 0) with
  | refused e =>
    rw [hturn] at hgoes
    exact ⟨none, after, rfl, hgoes, fun kind hkind => by cases hkind⟩
  | broken reached e =>
    rw [hturn] at hgoes
    exact ⟨none, after, rfl, hgoes, fun kind hkind => by cases hkind⟩
  | works draw =>
    rw [hturn] at hgoes
    refine ⟨_, after, rfl, hgoes, fun kind hkind => ?_⟩
    simp only [Memory.host] at hkind
    split at hkind
    · next place hfind =>
      cases hkind
      exact ⟨place, .directory, hfind, by simp⟩
    · next place content executable hfind =>
      cases hkind
      exact ⟨place, _, hfind, by simp⟩
    · cases hkind

theorem isDirectory_cases (p : Path) :
    ∃ answer after, host.isDirectory p trial = (answer, after) ∧ Goes trial [] after ∧
      (answer = true → ∃ place,
        trial.memory.tree.find trial.memory.base p = .ok (place, .directory)) := by
  obtain ⟨answer, after, hrun, hgoes, hfound⟩ := kind?_cases trial p
  refine ⟨answer == some .directory, after, ?_, hgoes, fun hanswer => ?_⟩
  · rw [isDirectory, bind_apply, hrun]
    rfl
  · obtain ⟨place, node, hfind, hiff⟩ := hfound .directory (by simpa using hanswer)
    exact ⟨place, hiff.mp rfl ▸ hfind⟩

theorem isFile_cases (p : Path) :
    ∃ answer after, host.isFile p trial = (answer, after) ∧ Goes trial [] after ∧
      (answer = true → ∃ place content executable,
        trial.memory.tree.find trial.memory.base p = .ok (place, .file content executable)) := by
  obtain ⟨answer, after, hrun, hgoes, hfound⟩ := kind?_cases trial p
  refine ⟨answer == some .file, after, ?_, hgoes, fun hanswer => ?_⟩
  · rw [isFile, bind_apply, hrun]
    rfl
  · obtain ⟨place, node, hfind, hiff⟩ := hfound .file (by simpa using hanswer)
    cases node with
    | directory => exact absurd (hiff.mpr rfl) (by decide)
    | file content executable => exact ⟨place, content, executable, hfind⟩

/-- A read that works gives all of the file, and a read that breaks off ends with a failure. -/
theorem read_cases (p : Path) (size : Nat) :
    ∃ answer after, host.read p size trial = (answer, after) ∧ Goes trial [] after ∧
      ∀ reads, answer = .ok reads → (∃ e rest, reads = .failed e :: rest) ∨
        ∃ place content executable,
          trial.memory.tree.find trial.memory.base p = .ok (place, .file content executable) ∧
            (reads = Memory.chunks size content ∨
              ∃ n e, reads = (Memory.chunks size content).take n ++ [.failed e]) := by
  obtain ⟨after, hrun, hgoes⟩ := perform_goes trial (read p size)
  have hhost : host.read p size trial = _ := hrun
  rw [hhost]
  cases hturn : trial.turns.headD (.works 0) with
  | refused e =>
    rw [hturn] at hgoes
    exact ⟨_, after, rfl, hgoes, nofun⟩
  | works draw =>
    rw [hturn] at hgoes
    refine ⟨_, after, rfl, hgoes, fun reads hreads => ?_⟩
    simp only [read, Memory.host] at hreads
    split at hreads
    · cases hreads
      exact .inl ⟨_, _, rfl⟩
    · next place content executable hfind =>
      cases hreads
      exact .inr ⟨place, content, executable, hfind, .inl rfl⟩
    · cases hreads
  | broken reached e =>
    rw [hturn] at hgoes
    refine ⟨_, after, rfl, hgoes, fun reads hreads => ?_⟩
    simp only [read, Memory.host] at hreads
    split at hreads
    · cases hreads
      cases reached <;> exact .inl ⟨_, _, rfl⟩
    · next place content executable hfind =>
      cases hreads
      exact .inr ⟨place, content, executable, hfind, .inr ⟨reached, e, rfl⟩⟩
    · cases hreads

/-- What is read as a whole is what the file holds. -/
theorem readAll_cases (p : Path) :
    ∃ answer after, host.readAll p trial = (answer, after) ∧ Goes trial [] after ∧
      ∀ content, answer = .ok content → ∃ place executable,
        trial.memory.tree.find trial.memory.base p = .ok (place, .file content executable) := by
  obtain ⟨answer, after, hrun, hgoes, hreads⟩ := read_cases trial p chunkSize
  rw [readAll, bind_apply, hrun]
  cases answer with
  | error e => exact ⟨_, after, rfl, hgoes, nofun⟩
  | ok reads =>
    dsimp only
    rcases hreads reads rfl with
      ⟨e, rest, rfl⟩ | ⟨place, content, executable, hfind, rfl | ⟨n, e, rfl⟩⟩
    · exact ⟨.error e, after, rfl, hgoes, nofun⟩
    · rw [copyChunks_chunks]
      refine ⟨.ok content, after, rfl, hgoes, fun content' hcontent => ?_⟩
      cases hcontent
      exact ⟨place, executable, hfind⟩
    · rw [outcome_copyChunks_broken]
      exact ⟨.error e, after, rfl, hgoes, nofun⟩

/-! ## Staged files -/

theorem stage_cases (directory : Path) :
    (∃ e after, host.stage directory trial = (.error e, after) ∧ Goes trial [] after) ∨
    ∃ draw t after, host.stage directory trial =
        (.ok (freshPath trial.memory stagingStem directory draw), after) ∧ Goes trial [t] after ∧
      Staged trial.memory.base (freshPath trial.memory stagingStem directory draw) []
        trial.memory.tree t := by
  rcases createFresh_cases trial stagingStem directory FileTree.createFile with
    hfail | ⟨draw, t, after, -, hrun, hgoes, hcreate⟩
  · exact .inl hfail
  · exact .inr ⟨draw, t, after, hrun, hgoes, staged_of_createFile hcreate⟩

variable {trial} {before : FileTree} {p : Path} {content : Bytes}

theorem growing_staged (h : Staged trial.memory.base p content before trial.memory.tree)
    (more : Bytes) (count : Nat) :
    growing trial.memory p more count = .ok ((List.range (count + 1)).map fun n =>
      trial.memory.tree.set (placeOf trial.memory.base p)
        (.file (content ++ more.take n) false)) := by
  unfold growing
  simp only [append_eq h.found]
  exact List.mapM_pure

/-- A file that is staged grows and stays staged; if all went well, it has all of the content. -/
theorem append_cases (h : Staged trial.memory.base p content before trial.memory.tree)
    (more : Bytes) :
    ∃ answer trees after, host.append p more trial = (answer, after) ∧ Goes trial trees after ∧
      (∀ t ∈ trees, ∃ content', Staged trial.memory.base p content' before t) ∧
      (answer = .ok () →
        Staged trial.memory.base p (content ++ more) before after.memory.tree) := by
  have hgrowing : ∀ count, ∀ t ∈ (List.range (count + 1)).map (fun n =>
        trial.memory.tree.set (placeOf trial.memory.base p) (.file (content ++ more.take n) false)),
      ∃ content', Staged trial.memory.base p content' before t := by
    intro count t ht
    obtain ⟨n, -, rfl⟩ := List.mem_map.mp ht
    exact ⟨_, h.fill (more.take n)⟩
  obtain ⟨after, hrun, hgoes⟩ := perform_goes trial (append p more)
  have hhost : host.append p more trial = _ := hrun
  rw [hhost]
  cases hturn : trial.turns.headD (.works 0) with
  | refused e =>
    rw [hturn] at hgoes
    exact ⟨.error e, [], after, rfl, hgoes, List.forall_mem_nil _, fun h => by cases h⟩
  | broken reached e =>
    rw [hturn] at hgoes
    simp only [append, growing_staged h] at hgoes ⊢
    exact ⟨.error e, _, after, rfl, hgoes, hgrowing reached, fun h => by cases h⟩
  | works draw =>
    rw [hturn] at hgoes
    simp only [append, growing_staged h] at hgoes ⊢
    refine ⟨.ok (), _, after, rfl, hgoes, hgrowing more.length, fun _ => ?_⟩
    rw [hgoes.tree, List.range_succ, List.map_append, List.map_singleton, List.getLastD_concat,
      List.take_length]
    exact h.fill more

/-- A staged file is dropped. -/
theorem discard_cases (h : Staged trial.memory.base p content before trial.memory.tree) :
    ∃ t after, host.discard p trial = ((), after) ∧ Goes trial [t] after ∧
      ∀ x, t.get? x = before.get? x := by
  obtain ⟨after, hrun, hgoes⟩ : ∃ after, host.discard p trial = ((), after) ∧
      Goes trial _ after := by
    dsimp only [host]
    exact perform_goes trial _
  rw [removeFile_eq h.found] at hgoes
  exact ⟨_, after, hrun, hgoes, h.drop⟩

/-- A staged file is put into its place. If that fails, it can be dropped. -/
theorem put_cases (h : Staged trial.memory.base p content before trial.memory.tree) (path : Path) :
    (∃ e failed t after, host.rename p path trial = (.error e, failed) ∧
      host.discard p failed = ((), after) ∧ Goes trial [t] after ∧
      ∀ x, t.get? x = before.get? x) ∨
    ∃ t after, host.rename p path trial = (.ok (), after) ∧ Goes trial [t] after ∧
      Replaced trial.memory.base path content before t := by
  rcases rename_cases trial p path with
    ⟨e, failed, hrun, hgoes⟩ | ⟨t, after, hrun, hgoes, hrenamed⟩
  · have hstill : Staged failed.memory.base p content before failed.memory.tree := by
      rw [hgoes.base, hgoes.tree_same]
      exact h
    obtain ⟨t, after, hdropped, hgoes', hsame⟩ := discard_cases hstill
    exact .inl ⟨e, failed, t, after, hrun, hdropped, hgoes.trans hgoes', hsame⟩
  · exact .inr ⟨t, after, hrun, hgoes, h.put hrenamed⟩

/-! ## Missing directories -/

/-- What creating directories on the way to a path does: it adds directories at stations of the path,
and if it says that all is well, there is a directory. -/
structure Makes (p : Path) (trial : Trial) (answer : Except IoError Unit) (trees : List FileTree)
    (after : Trial) : Prop where
  goes : Goes trial trees after
  grown : ∀ t ∈ trees, Grown (stations trial.memory.base p) trial.memory.tree t
  found : answer = .ok () → p.isEmpty = true ∨
    ∃ place, after.memory.tree.find trial.memory.base p = .ok (place, .directory)

theorem makes_of_makeDirectory {trial after : Trial} {p : Path} {t : FileTree}
    (hgoes : Goes trial [t] after)
    (hmade : trial.memory.tree.makeDirectory trial.memory.base p = .ok t) :
    Makes p trial (.ok ()) [t] after := by
  refine ⟨hgoes, ?_, fun _ => .inr ⟨placeOf trial.memory.base p, ?_⟩⟩
  · exact List.forall_mem_singleton.mpr (grown_of_makeDirectory hmade)
  · rw [hgoes.tree_eq]
    exact find_of_makeDirectory hmade

theorem Makes.grown_after {trial after : Trial} {p : Path} {answer : Except IoError Unit}
    {trees : List FileTree} (h : Makes p trial answer trees after) :
    Grown (stations trial.memory.base p) trial.memory.tree after.memory.tree :=
  h.goes.last (.refl _ _) h.grown

/-- Something is asked before the directories are made. -/
theorem Makes.after_asking {trial asked after : Trial} {p : Path} {answer : Except IoError Unit}
    {trees : List FileTree} (hgoes : Goes trial [] asked) (h : Makes p asked answer trees after) :
    Makes p trial answer trees after where
  goes := hgoes.trans h.goes
  grown := hgoes.memory_same ▸ h.grown
  found := hgoes.memory_same ▸ h.found

theorem makeDirectories_eq {m : Type → Type} [Monad m] (host : Host m) (p : Path) :
    host.makeDirectories p =
      if p.isEmpty then pure (.ok ()) else do
        match ← host.makeDirectory p with
        | .ok () => return .ok ()
        | .error e =>
          if e.isNotFound then
            match p.parent? with
            | none => return .error (.described "failed to create whole tree")
            | some parent =>
              match ← host.makeDirectories parent with
              | .ok () => host.ensureDirectory p
              | .error e => return .error e
          else return if ← host.isDirectory p then .ok () else .error e := by
  rw [makeDirectories]
  split
  · rfl
  · refine bind_congr fun made => ?_
    cases made with
    | ok u => rfl
    | error e =>
      dsimp only
      split
      · split
        · next hnone => rw [hnone]
        · next parent hparent =>
          rewrite [hparent]
          rfl
      · rfl

/-- Once a directory could not be made, it is well only if one is there. -/
theorem Makes.of_asked {trial failed : Trial} {p : Path} (e : IoError) (hgoes : Goes trial [] failed) :
    ∃ answer after, (do return if ← host.isDirectory p then .ok () else .error e :
        StateM Trial (Except IoError Unit)) failed = (answer, after) ∧
      Makes p trial answer [] after := by
  obtain ⟨answer, after, hasked, hgoes', hfound⟩ := isDirectory_cases failed p
  rw [bind_apply, hasked]
  refine ⟨_, after, rfl, hgoes.trans hgoes', List.forall_mem_nil _, fun h => .inr ?_⟩
  cases answer with
  | false => cases h
  | true =>
    obtain ⟨place, hplace⟩ := hfound rfl
    rw [hgoes'.tree_same, ← hgoes.base]
    exact ⟨place, hplace⟩

theorem ensureDirectory_cases (trial : Trial) (p : Path) :
    ∃ answer trees after, host.ensureDirectory p trial = (answer, after) ∧
      Makes p trial answer trees after := by
  rw [ensureDirectory, bind_apply]
  rcases makeDirectory_cases trial p with
    ⟨e, failed, hrun, hgoes⟩ | ⟨t, after, hrun, hgoes, hmade⟩
  · rw [hrun]
    obtain ⟨answer, after, hasked, hmakes⟩ := Makes.of_asked e hgoes
    exact ⟨answer, [], after, hasked, hmakes⟩
  · rw [hrun]
    exact ⟨.ok (), [t], after, rfl, makes_of_makeDirectory hgoes hmade⟩

/-- **Creating missing directories adds directories at stations of the path**, whichever steps
fail. -/
theorem makeDirectories_cases (trial : Trial) (p : Path) :
    ∃ answer trees after, host.makeDirectories p trial = (answer, after) ∧
      Makes p trial answer trees after := by
  induction hlength : p.text.toList.length using Nat.strongRecOn generalizing trial p with
  | _ length ih =>
  have hstays : ∀ {after : Trial} (e : IoError), Goes trial [] after →
      Makes p trial (.error e) [] after :=
    fun e hgoes => ⟨hgoes, List.forall_mem_nil _, fun h => by cases h⟩
  rw [makeDirectories_eq]
  split
  · next hempty =>
    exact ⟨.ok (), [], trial, rfl, .refl trial, List.forall_mem_nil _, fun _ => .inl hempty⟩
  · rw [bind_apply]
    rcases makeDirectory_cases trial p with
      ⟨e, failed, hrun, hgoes⟩ | ⟨t, after, hrun, hgoes, hmade⟩
    · rw [hrun]
      dsimp only
      split
      · cases hparent : p.parent? with
        | none => exact ⟨_, [], failed, rfl, hstays _ hgoes⟩
        | some parent =>
          -- the directories above come first, and lie on the way
          obtain ⟨answer, trees, middle, habove, hmakes⟩ :=
            ih _ (hlength ▸ Path.length_parent? hparent) failed parent rfl
          have hgrown : ∀ t ∈ trees,
              Grown (stations trial.memory.base p) trial.memory.tree t := by
            intro t ht
            rw [← hgoes.base, ← hgoes.tree_same]
            exact (hmakes.grown t ht).mono fun x => stations_parent hparent
          have hmiddle : Goes trial trees middle := hgoes.trans hmakes.goes
          dsimp only
          rw [bind_apply, habove]
          cases answer with
          | error e => exact ⟨_, trees, middle, rfl, hmiddle, hgrown, fun h => by cases h⟩
          | ok u =>
            obtain ⟨answer, trees', after, hensured, hmakes'⟩ := ensureDirectory_cases middle p
            refine ⟨answer, trees ++ trees', after, hensured, hmiddle.trans hmakes'.goes, ?_, ?_⟩
            · refine List.forall_mem_append.mpr ⟨hgrown, fun t ht => ?_⟩
              have hlater := hmakes'.grown t ht
              rw [hmiddle.base] at hlater
              exact (hmiddle.last (.refl _ _) hgrown).trans hlater
            · rw [← hmiddle.base]
              exact hmakes'.found
      · obtain ⟨answer, after, hasked, hmakes⟩ := Makes.of_asked e hgoes
        exact ⟨answer, [], after, hasked, hmakes⟩
    · rw [hrun]
      exact ⟨.ok (), [t], after, rfl, makes_of_makeDirectory hgoes hmade⟩

/-- Once directories were created, creating them again changes nothing. -/
theorem makeDirectories_again {trial : Trial} {p : Path}
    (h : p.isEmpty = true ∨
      ∃ place, trial.memory.tree.find trial.memory.base p = .ok (place, .directory)) :
    ∃ answer trees after, host.makeDirectories p trial = (answer, after) ∧
      Makes p trial answer trees after ∧
      ∀ x, after.memory.tree.get? x = trial.memory.tree.get? x := by
  rcases h with hempty | ⟨place, hfound⟩
  · have hrun : host.makeDirectories p trial = (.ok (), trial) := by
      rw [makeDirectories_eq, if_pos hempty]
      rfl
    exact ⟨_, [], trial, hrun, ⟨.refl trial, List.forall_mem_nil _, fun _ => .inl hempty⟩,
      fun _ => rfl⟩
  · obtain ⟨answer, trees, after, hrun, hmakes⟩ := makeDirectories_cases trial p
    exact ⟨answer, trees, after, hrun, hmakes,
      hmakes.grown_after.get?_eq_of_directories (directories_of_find hfound)⟩

end Trial
end Stubwright.Host

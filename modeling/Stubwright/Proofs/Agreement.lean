import Mathlib.Data.List.Perm.Subperm
import Stubwright.Proofs.FileWrites

/-!
# What works, works as in memory

    trial ──operation that works──▶ answer, memory
    memory ────same operation────▶ answer, memory

A machine on which operations may fail says nothing new as long as none does: each operation whose
turn it is to work answers as the machine in memory does, and leaves the same memory behind. Where a
fresh name is drawn, this holds if the name is the one that the machine in memory would take; such a
number can always be drawn (`exists_draw`).

`Matches` says this of whole programs: there are turns, all of which work, that let the program do what
it does in memory. It holds of every operation, and goes from the steps of a program to the program
(`Matches.bind`, `Matches.attempt`).
-/

namespace Stubwright.Host.Trial

variable {trial : Trial} {draw : Nat}

/-- An operation takes one turn, answers as it does in memory, and leaves the memory that it leaves
there. -/
structure Agrees {α : Type} (here : StateM Trial α) (inMemory : StateM Memory α) (trial : Trial) :
    Prop where
  answer : (here trial).1 = (inMemory trial.memory).1
  memory : (here trial).2.memory = (inMemory trial.memory).2
  turns : (here trial).2.turns = trial.turns.tail

/-- The memory after the trees of an operation were passed through. -/
def settle (memory : Memory) (trees : List FileTree) : Memory :=
  { memory with tree := trees.getLastD memory.tree }

theorem agrees_of_works {α : Type} {act : Turn → Memory → α × List FileTree}
    {inMemory : StateM Memory α} (h : Works trial draw)
    (hmemory : inMemory trial.memory
      = ((act (.works draw) trial.memory).1,
        settle trial.memory (act (.works draw) trial.memory).2)) :
    Agrees (perform act) inMemory trial := by
  rw [← h] at hmemory
  refine ⟨?_, ?_, rfl⟩
  · rw [hmemory]
    rfl
  · rw [hmemory]
    rfl

/-! ## Operations in one step -/

theorem step_agrees (h : Works trial draw) (f : FileTree → Place → Except IoError FileTree) :
    Agrees (perform (step f)) (Memory.update f) trial := by
  refine agrees_of_works h ?_
  unfold Memory.update step
  dsimp only
  cases f trial.memory.tree trial.memory.base <;> rfl

theorem createFresh_agrees (h : Works trial draw) {stem : String} (directory : Path)
    (create : FileTree → Place → Path → Except IoError FileTree)
    (hfresh : Memory.freshName trial.memory.tree stem = stem ++ Memory.padded draw) :
    Agrees (perform (createFresh stem directory create))
      (Memory.createFresh stem directory create) trial := by
  refine agrees_of_works h ?_
  unfold Memory.createFresh createFresh freshPath
  dsimp only
  rw [hfresh]
  cases create trial.memory.tree trial.memory.base
    (((Memory.absolute trial.memory.base).join directory).join ⟨stem ++ Memory.padded draw⟩) <;> rfl

theorem makeDirectory_agrees (h : Works trial draw) (p : Path) :
    Agrees (host.makeDirectory p) (Memory.host.makeDirectory p) trial := by
  dsimp only [host, Memory.host]
  exact step_agrees h fun tree base => tree.makeDirectory base p

theorem rename_agrees (h : Works trial draw) (p q : Path) :
    Agrees (host.rename p q) (Memory.host.rename p q) trial := by
  dsimp only [host, Memory.host]
  exact step_agrees h fun tree base => tree.rename base p q

theorem stage_agrees (h : Works trial draw) (directory : Path)
    (hfresh : Memory.freshName trial.memory.tree stagingStem
      = stagingStem ++ Memory.padded draw) :
    Agrees (host.stage directory) (Memory.host.stage directory) trial := by
  dsimp only [host, Memory.host]
  exact createFresh_agrees h directory FileTree.createFile hfresh

theorem makeScratch_agrees (h : Works trial draw) (directory : Path)
    (hfresh : Memory.freshName trial.memory.tree scratchStem
      = scratchStem ++ Memory.padded draw) :
    Agrees (host.makeScratch directory) (Memory.host.makeScratch directory) trial := by
  dsimp only [host, Memory.host]
  exact createFresh_agrees h directory FileTree.makeDirectory hfresh

theorem discard_agrees (h : Works trial draw) (p : Path) :
    Agrees (host.discard p) (Memory.host.discard p) trial := by
  dsimp only [host, Memory.host]
  refine agrees_of_works h ?_
  rw [bind_apply, Memory.update]
  cases trial.memory.tree.removeFile trial.memory.base p <;> rfl

/-! ## Operations that look -/

theorem kind?_agrees (h : Works trial draw) (p : Path) :
    Agrees (host.kind? p) (Memory.host.kind? p) trial := by
  dsimp only [host, Memory.host]
  refine agrees_of_works h ?_
  dsimp only
  split <;> rfl

theorem read_agrees (h : Works trial draw) (p : Path) (size : Nat) :
    Agrees (host.read p size) (Memory.host.read p size) trial := by
  dsimp only [host, Memory.host]
  refine agrees_of_works h ?_
  dsimp only [read, Memory.host]
  split <;> rfl

/-! ## Operations in many steps -/

theorem mapM_eq_error {α β ε : Type} {f : α → Except ε β} {e : ε} (hf : ∀ a, f a = .error e)
    (a : α) (more : List α) : (a :: more).mapM f = .error e := by
  rw [List.mapM_cons, hf]
  rfl

/-- A file that grows byte by byte ends as one that is written at once. -/
theorem append_agrees (h : Works trial draw) (p : Path) (more : Bytes) :
    Agrees (host.append p more) (Memory.host.append p more) trial := by
  dsimp only [host, Memory.host]
  refine agrees_of_works h ?_
  have hfails : ∀ {e}, (∀ more, trial.memory.tree.append trial.memory.base p more = .error e) →
      Memory.update (fun tree base => tree.append base p more) trial.memory
        = ((append p more (.works draw) trial.memory).1,
          settle trial.memory (append p more (.works draw) trial.memory).2) := by
    intro e he
    dsimp only [Memory.update, append, growing]
    rw [List.range_succ_eq_map, mapM_eq_error fun n => he (more.take n), he]
    rfl
  cases hfind : trial.memory.tree.find trial.memory.base p with
  | error e =>
    refine @hfails e fun more => ?_
    rw [FileTree.append, hfind]
    rfl
  | ok found =>
    obtain ⟨place, _ | ⟨content, executable⟩⟩ := found
    · refine @hfails (.system Errno.isDirectory) fun more => ?_
      rw [FileTree.append, hfind]
      rfl
    · dsimp only [Memory.update, append, growing, settle]
      simp only [FileTree.append_eq hfind]
      have hall : (List.range (more.length + 1)).mapM (fun n =>
          (.ok (trial.memory.tree.set place (.file (content ++ more.take n) executable)) :
            Except IoError FileTree))
          = .ok ((List.range (more.length + 1)).map fun n =>
            trial.memory.tree.set place (.file (content ++ more.take n) executable)) :=
        List.mapM_pure
      rw [hall, List.range_succ, List.map_append, List.map_singleton]
      dsimp only
      rw [List.getLastD_concat, List.take_length]

/-- A directory that is removed entry by entry ends as one that is removed at once. -/
theorem removeTree_agrees (h : Works trial draw) (p : Path) :
    Agrees (host.removeTree p) (Memory.host.removeTree p) trial := by
  dsimp only [host, Memory.host]
  refine agrees_of_works h ?_
  rw [bind_apply]
  dsimp only [Memory.update, removeTree, FileTree.removeTree]
  cases hfind : trial.memory.tree.find trial.memory.base p with
  | error e => rfl
  | ok found =>
    obtain ⟨place, _ | ⟨content, executable⟩⟩ := found
    · dsimp only [settle]
      rw [List.getLastD_concat]
      rfl
    · rfl

/-- A program leaves the working directory where it is. -/
theorem base_runProgram (program : Path) (args : List String) (memory : Memory) :
    (Memory.runProgram program args memory).2.base = memory.base := by
  unfold Memory.runProgram Memory.runFile
  split
  · rfl
  · split
    · split
      · rfl
      · rfl
      · rfl
      · split
        · rfl
        · dsimp only
          split <;> rfl
    · split
      · rfl
      · split <;> rfl

theorem run_agrees (h : Works trial draw) (program : Path) (args : List String) :
    Agrees (host.run program args) (Memory.host.run program args) trial := by
  dsimp only [host, Memory.host]
  refine agrees_of_works h ?_
  have hbase := base_runProgram program args trial.memory
  dsimp only [settle]
  rw [← hbase]
  rfl

/-! ## Fresh names -/

theorem padded_injective : Function.Injective Memory.padded := by
  have hzeros : ∀ zeros, Nat.ofDigitChars 10 (List.replicate zeros '0') 0 = 0 := by
    intro zeros
    induction zeros with
    | zero => rfl
    | succ zeros ih => exact ih
  -- the digits say which number it is, with or without zeros in front
  have hread : ∀ n, Nat.ofDigitChars 10 (Memory.padded n).toList 0 = n := by
    intro n
    obtain ⟨zeros, hpadded⟩ := padded_toList n
    rw [hpadded, Nat.ofDigitChars_append, hzeros, Nat.ofDigitChars_ten_toDigits]
  intro a b h
  rw [← hread a, h, hread]

/-- The machine in memory finds a number for a fresh name: it tries more than there are names. -/
theorem exists_draw (tree : FileTree) (stem : String) :
    ∃ draw, Memory.freshName tree stem = stem ++ Memory.padded draw := by
  unfold Memory.freshName
  dsimp only
  generalize tree.entries.filterMap (·.1.getLast?) = taken
  have hnodup : ((List.range (taken.length + 1)).map fun n => stem ++ Memory.padded n).Nodup := by
    refine List.nodup_range.map fun a b h => padded_injective (String.toList_injective ?_)
    have hlist : (stem ++ Memory.padded a).toList = (stem ++ Memory.padded b).toList :=
      congrArg String.toList h
    rwa [String.toList_append, String.toList_append, List.append_cancel_left_eq] at hlist
  cases hfind : ((List.range (taken.length + 1)).map fun n => stem ++ Memory.padded n).find?
      (!taken.contains ·) with
  | some name =>
    obtain ⟨draw, -, rfl⟩ := List.mem_map.mp (List.mem_of_find?_eq_some hfind)
    exact ⟨draw, rfl⟩
  | none =>
    have htaken : (List.range (taken.length + 1)).map (fun n => stem ++ Memory.padded n) ⊆ taken :=
      fun name hname => by simpa using List.find?_eq_none.mp hfind name hname
    have hlength := (List.subperm_of_subset hnodup htaken).length_le
    rw [List.length_map, List.length_range] at hlength
    omega

/-! ## Programs -/

/-- A program does what it does in memory, when all that befalls it is that its operations work. -/
def Matches {α : Type} (here : StateM Trial α) (inMemory : StateM Memory α) : Prop :=
  ∀ memory : Memory, ∃ turns : List Turn, (∀ turn ∈ turns, ∃ draw, turn = .works draw) ∧
    ∀ later passed, ∃ passed', here ⟨memory, turns ++ later, passed⟩
      = ((inMemory memory).1, ⟨(inMemory memory).2, later, passed'⟩)

namespace Matches

variable {α β : Type}

theorem pure (a : α) : Matches (Pure.pure a) (Pure.pure a) :=
  fun _ => ⟨[], List.forall_mem_nil _, fun _ passed => ⟨passed, rfl⟩⟩

theorem bind {here : StateM Trial α} {inMemory : StateM Memory α} {rest : α → StateM Trial β}
    {restInMemory : α → StateM Memory β} (h : Matches here inMemory)
    (hrest : ∀ a, Matches (rest a) (restInMemory a)) :
    Matches (here >>= rest) (inMemory >>= restInMemory) := by
  intro memory
  obtain ⟨first, hfirst, hrun⟩ := h memory
  obtain ⟨second, hsecond, hrun'⟩ := hrest (inMemory memory).1 (inMemory memory).2
  refine ⟨first ++ second, List.forall_mem_append.mpr ⟨hfirst, hsecond⟩, fun later passed => ?_⟩
  obtain ⟨between, hbetween⟩ := hrun (second ++ later) passed
  obtain ⟨passed', hpassed⟩ := hrun' later between
  refine ⟨passed', ?_⟩
  rw [List.append_assoc, bind_apply, hbetween]
  exact hpassed

/-- A step that may fail, what is done about it, and what comes next. -/
theorem attempt {ε : Type} {here : StateM Trial (Except ε α)} {inMemory : StateM Memory (Except ε α)}
    {rest : Except ε α → StateM Trial β} {restInMemory : Except ε α → StateM Memory β}
    (h : Matches here inMemory) (herror : ∀ e, Matches (rest (.error e)) (restInMemory (.error e)))
    (hok : ∀ a, Matches (rest (.ok a)) (restInMemory (.ok a))) :
    Matches (here >>= rest) (inMemory >>= restInMemory) :=
  h.bind fun result => match result with
    | .error e => herror e
    | .ok a => hok a

/-- An operation matches if there is always a turn that lets it agree. -/
theorem of_agrees {here : StateM Trial α} {inMemory : StateM Memory α}
    (h : ∀ memory, ∃ draw, ∀ trial : Trial, trial.memory = memory → Works trial draw →
      Agrees here inMemory trial) : Matches here inMemory := by
  intro memory
  obtain ⟨draw, hagrees⟩ := h memory
  refine ⟨[.works draw], List.forall_mem_singleton.mpr ⟨draw, rfl⟩, fun later passed => ?_⟩
  obtain ⟨hanswer, hmemory, hturns⟩ := hagrees ⟨memory, .works draw :: later, passed⟩ rfl rfl
  rw [List.singleton_append]
  generalize here ⟨memory, .works draw :: later, passed⟩ = run at hanswer hmemory hturns
  obtain ⟨answer, memory', turns', passed'⟩ := run
  cases hanswer
  cases hmemory
  cases hturns
  exact ⟨passed', rfl⟩

/-- An operation that draws no name agrees with any number. -/
theorem of_agrees_always {here : StateM Trial α} {inMemory : StateM Memory α}
    (h : ∀ trial draw, Works trial draw → Agrees here inMemory trial) : Matches here inMemory :=
  of_agrees fun _ => ⟨0, fun trial _ => h trial 0⟩

end Matches

theorem kind?_matches (p : Path) : Matches (host.kind? p) (Memory.host.kind? p) :=
  .of_agrees_always fun _ _ h => kind?_agrees h p

theorem read_matches (p : Path) (size : Nat) :
    Matches (host.read p size) (Memory.host.read p size) :=
  .of_agrees_always fun _ _ h => read_agrees h p size

theorem makeDirectory_matches (p : Path) :
    Matches (host.makeDirectory p) (Memory.host.makeDirectory p) :=
  .of_agrees_always fun _ _ h => makeDirectory_agrees h p

theorem stage_matches (directory : Path) :
    Matches (host.stage directory) (Memory.host.stage directory) := by
  refine .of_agrees fun memory => ?_
  obtain ⟨draw, hfresh⟩ := exists_draw memory.tree stagingStem
  exact ⟨draw, fun trial hmemory h => stage_agrees h directory (hmemory ▸ hfresh)⟩

theorem append_matches (p : Path) (more : Bytes) :
    Matches (host.append p more) (Memory.host.append p more) :=
  .of_agrees_always fun _ _ h => append_agrees h p more

theorem rename_matches (p q : Path) : Matches (host.rename p q) (Memory.host.rename p q) :=
  .of_agrees_always fun _ _ h => rename_agrees h p q

theorem discard_matches (p : Path) : Matches (host.discard p) (Memory.host.discard p) :=
  .of_agrees_always fun _ _ h => discard_agrees h p

theorem makeScratch_matches (directory : Path) :
    Matches (host.makeScratch directory) (Memory.host.makeScratch directory) := by
  refine .of_agrees fun memory => ?_
  obtain ⟨draw, hfresh⟩ := exists_draw memory.tree scratchStem
  exact ⟨draw, fun trial hmemory h => makeScratch_agrees h directory (hmemory ▸ hfresh)⟩

theorem removeTree_matches (p : Path) :
    Matches (host.removeTree p) (Memory.host.removeTree p) :=
  .of_agrees_always fun _ _ h => removeTree_agrees h p

theorem run_matches (program : Path) (args : List String) :
    Matches (host.run program args) (Memory.host.run program args) :=
  .of_agrees_always fun _ _ h => run_agrees h program args

end Stubwright.Host.Trial

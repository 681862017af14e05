import Stubwright.Proofs.Errors
import Stubwright.Proofs.FileWrites
import Stubwright.Proofs.SourcePaths
import Stubwright.Proofs.Supertypes
import Stubwright.Proofs.Validation
import Stubwright.Stub.Write

/-!
# What writing a source does to the files

    before ──directories──▶ grown ──stage, fill──▶ staged ──rename──▶ replaced
                                       └────drop────▶ as it was

The calls that write a source are followed on a machine on which any operation may fail. Directories
are added on the way to the package, and never anything else (`Grown`). Then a file is staged beside
its place, filled, and put into its place or dropped (`writeAtOnce_cases`), so that its place never
shows a part of it (`Underway`). What a call does is put together in `Contained`.
-/

namespace Stubwright.Stub

open Java Host FileTree Trial

variable {L : Library} {indent : Nat} {name : String} {target : Descriptor} {source : Source}
  {root path : Path}

/-! ## Writing one file -/

theorem writeAtOnce_eq {m : Type → Type} [Monad m] [LawfulMonad m] (host : Host m) (path : Path)
    (content : Bytes) :
    writeAtOnce host path content =
      writeBeside host (path.parent?.getD Path.here) path (.write path) (.write path) fun staged => do
        match ← host.append staged content with
        | .error e => return .error (.write path e)
        | .ok () => return .ok () := by
  unfold writeAtOnce writeBeside
  refine bind_congr fun staged => ?_
  cases staged with
  | error e => rfl
  | ok staged =>
    dsimp only
    rw [bind_assoc]
    refine bind_congr fun written => ?_
    cases written with
    | error e =>
      rewrite [pure_bind]
      rfl
    | ok u =>
      rewrite [pure_bind]
      rfl

/-- A file is written as a whole or not at all. -/
theorem writeAtOnce_cases (trial : Trial) (path : Path) (content : Bytes) :
    ∃ answer trees after, writeAtOnce Trial.host path content trial = (answer, after) ∧
      WritesFile (· = content) path trial answer trees after := by
  rw [writeAtOnce_eq]
  refine writeBeside_cases trial _ path _ _ _ fun p opened _ hopened => ?_
  exact .append hopened content (fun e _ => .failed _ _) fun filled _ hfilled => .done rfl hfilled

/-- Whether an error says that there is no such target, or that it cannot be implemented. -/
def AboutTarget : StubError → Prop
  | .library _ | .invalidTarget _ _ => True
  | _ => False

theorem AboutFiles.not_aboutTarget {e : StubError} (h : AboutFiles e) : ¬ AboutTarget e := by
  cases h with
  | write => exact id
  | directory => exact id

/-! ## Writing a source -/

/-- A fresh name is not the name of a source file. -/
theorem fresh_ne_sourceName (stem : String) (draw : Nat) (target : Descriptor) :
    stem ++ Memory.padded draw ≠ sourceName target := by
  intro heq
  obtain ⟨c, hlast, hdigit⟩ := exists_digit_getLast?_fresh stem draw
  have hjava : (sourceName target).toList.getLast? = some 'a' := by
    rw [sourceName, String.toList_append, List.getLast?_append_of_ne_nil _ (by decide)]
    rfl
  rw [heq, hjava] at hlast
  cases hlast
  exact absurd hdigit (by decide)

/-- A fresh name is no name of a source file. -/
theorem getLast?_placeOf_sourcePath (h : isBinaryName target.name = true) (base : Place)
    (root : Path) (draw : Nat) :
    (placeOf base (sourcePath root target)).getLast?
      ≠ some (stagingStem ++ Memory.padded draw) := by
  rw [placeOf_sourcePath h, List.getLast?_concat]
  exact fun heq => fresh_ne_sourceName _ draw target (Option.some.inj heq).symm

/-- The directory of the package was made, or is where the machine is. -/
def Prepared (base : Place) (root : Path) (target : Descriptor) (t : FileTree) : Prop :=
  (packageDirectory root target).isEmpty = true ∨
    ∃ place, t.find base (packageDirectory root target) = .ok (place, .directory)

theorem preparePath_cases (trial : Trial) (root : Path) (target : Descriptor) :
    ∃ answer trees after, Trial.host.makeDirectories (packageDirectory root target) trial
        = (answer, after) ∧
      Makes (packageDirectory root target) trial answer trees after ∧
      preparePath Trial.host root target trial =
        (match answer with
          | .error e => .error (.directory (packageDirectory root target) e)
          | .ok () => .ok (sourcePath root target), after) := by
  obtain ⟨answer, trees, after, hrun, hmakes⟩ :=
    makeDirectories_cases trial (packageDirectory root target)
  refine ⟨answer, trees, after, hrun, hmakes, ?_⟩
  rw [preparePath, bind_apply, hrun]
  cases answer <;> rfl

/-- **Writing a source adds directories on the way to the package and puts one file there, or it fails
and only adds directories.** -/
theorem writeSource_cases (h : isBinaryName target.name = true) (trial : Trial) (root : Path)
    (source : Source) :
    ∃ answer trees after, writeSource Trial.host root target source trial = (answer, after) ∧
      Goes trial trees after ∧
      (∀ t ∈ trees, Underway (stations trial.memory.base (packageDirectory root target))
        (placeOf trial.memory.base (sourcePath root target)) (Text.utf8 source.text)
        trial.memory.tree t) ∧
      ((∃ e, answer = .error e ∧ ¬ AboutTarget e) ∧
          Grown (stations trial.memory.base (packageDirectory root target)) trial.memory.tree
            after.memory.tree ∨
        answer = .ok (sourcePath root target) ∧
          Prepared trial.memory.base root target after.memory.tree ∧
          Placed (stations trial.memory.base (packageDirectory root target)) trial.memory.base
            (sourcePath root target) (Text.utf8 source.text) trial.memory.tree
            after.memory.tree) := by
  obtain ⟨answer, trees, prepared, -, hmakes, hrun⟩ := preparePath_cases trial root target
  rw [writeSource, bind_apply, hrun]
  cases answer with
  | error e =>
    exact ⟨_, trees, prepared, rfl, hmakes.goes, fun t ht => .of_grown (hmakes.grown t ht),
      .inl ⟨⟨_, rfl, id⟩, hmakes.grown_after⟩⟩
  | ok u =>
    obtain ⟨answer, trees', after, hwrite, hwrites⟩ :=
      writeAtOnce_cases prepared (sourcePath root target) (Text.utf8 source.text)
    have hdelivers := Delivers.of_made hmakes hwrites
    have hpassed := hdelivers.passed _ (fun _ => id) (getLast?_placeOf_sourcePath h _ root)
    dsimp only
    rw [bind_apply, hwrite]
    cases answer with
    | error e =>
      have hnot : ¬ AboutTarget e :=
        (writeAtOnce_errors Trial.host _ _ prepared e (congrArg Prod.fst hwrite)).not_aboutTarget
      exact ⟨_, trees ++ trees', after, rfl, hdelivers.goes, hpassed,
        .inl ⟨⟨e, rfl, hnot⟩, hdelivers.failed e rfl⟩⟩
    | ok u =>
      obtain ⟨content, rfl, hplaced⟩ := hdelivers.done rfl
      refine ⟨_, trees ++ trees', after, rfl, hdelivers.goes, hpassed, .inr ⟨rfl, ?_, hplaced⟩⟩
      -- the directory of the package is still there
      obtain ⟨_, rfl, hreplaced⟩ := hwrites.done rfl
      rw [hmakes.goes.base] at hreplaced
      refine (hmakes.found rfl).imp_right fun ⟨place, hfound⟩ => ⟨place, ?_⟩
      have hkeeps := keepsDirectories_of_elsewhere hreplaced.nodirectory hreplaced.elsewhere
      exact find_keeps (fun x _ => hkeeps x) hfound (hkeeps place (find_eq_ok_iff.mp hfound).2.2)

/-- **Writing a source again changes nothing**, whichever steps fail. -/
theorem writeSource_again {again : Trial} (hprepared : Prepared again.memory.base root target
      again.memory.tree)
    (hfile : again.memory.tree.get? (placeOf again.memory.base (sourcePath root target))
      = some (.file (Text.utf8 source.text) false)) (x : Place) :
    (writeSource Trial.host root target source again).2.memory.tree.get? x
      = again.memory.tree.get? x := by
  obtain ⟨answer, trees, prepared, hmade, hmakes, hrun⟩ := preparePath_cases again root target
  have hsame : ∀ x, prepared.memory.tree.get? x = again.memory.tree.get? x := by
    obtain ⟨_, _, _, hmade', -, hsame⟩ := makeDirectories_again hprepared
    rw [hmade] at hmade'
    cases hmade'
    exact hsame
  rw [writeSource, bind_apply, hrun]
  cases answer with
  | error e => exact hsame x
  | ok u =>
    obtain ⟨answer, trees', after, hwrite, hwrites⟩ :=
      writeAtOnce_cases prepared (sourcePath root target) (Text.utf8 source.text)
    dsimp only
    rw [bind_apply, hwrite]
    cases answer with
    | error e => exact (hwrites.failed e rfl x).trans (hsame x)
    | ok u =>
      obtain ⟨content, rfl, hreplaced⟩ := hwrites.done rfl
      rw [hmakes.goes.base] at hreplaced
      show after.memory.tree.get? x = _
      by_cases hx : x = placeOf again.memory.base (sourcePath root target)
      · rw [hx, (placeOf_of_find hreplaced.found).2, hfile]
      · rw [hreplaced.elsewhere x hx, hsame]

/-! ## Generating the source of a named type -/

theorem targetDefect?_of_render (h : render L indent target = .ok source) :
    targetDefect? target = none := by
  unfold render members checkTarget at h
  cases hdefect : targetDefect? target with
  | none => rfl
  | some defect =>
    rw [hdefect] at h
    cases h

/-- What a name resolves to is declared, or is of a kind that has no declarations. -/
theorem resolve_cases {d : Descriptor} (h : L.resolve name = .ok d) :
    d ∈ L.types ∨ d.kind = .primitiveType ∨ d.kind = .arrayType := by
  unfold Library.resolve at h
  split at h
  · cases h
    exact .inr (.inl rfl)
  · cases h
    exact .inr (.inr rfl)
  · split at h
    · next hget =>
      cases h
      exact .inl (Library.get?_eq_some_iff.mp hget).1
    · cases h
  · cases h

/-- A target that a valid library has a stub for has a binary name. -/
theorem isBinaryName_of_render (hL : L.validate = .ok ())
    (htarget : resolveTarget L name = .ok target) (hsource : render L indent target = .ok source) :
    isBinaryName target.name = true := by
  have hdefect := targetDefect?_of_render hsource
  unfold targetDefect? at hdefect
  have hmember : target ∈ L.types := by
    unfold resolveTarget at htarget
    split at htarget
    · cases htarget
    · cases hresolve : L.resolve name with
      | error e =>
        rw [hresolve] at htarget
        cases htarget
      | ok d =>
        rw [hresolve] at htarget
        cases htarget
        split at hdefect
        · cases hdefect
        · rcases resolve_cases hresolve with hmember | hkind | hkind
          · exact hmember
          · rw [hkind] at hdefect
            cases hdefect
          · rw [hkind] at hdefect
            cases hdefect
  exact (Library.checkType_eq_ok_iff.mp ((Library.validate_eq_ok_iff.mp hL).1 target hmember)).1

/-- What generating the source of a named type may do to a machine. -/
structure Contained (L : Library) (indent : Nat) (root : Path) (name : String) (trial : Trial)
    (answer : Except StubError Path) (after : Trial) : Prop where
  /-- A target that is refused leaves everything untouched. -/
  untouched : ∀ e, answer = .error e → AboutTarget e → after = trial
  /-- A failure leaves no more than directories on the way to the package. -/
  failed : ∀ e, answer = .error e → after = trial ∨ ∃ target, resolveTarget L name = .ok target ∧
    Grown (stations trial.memory.base (packageDirectory root target)) trial.memory.tree
      after.memory.tree
  /-- A success leaves the source where it belongs, directories on the way, and all else as it was. -/
  done : ∀ path, answer = .ok path → ∃ target source, resolveTarget L name = .ok target ∧
    render L indent target = .ok source ∧ path = root.join (relativePath target) ∧
    Placed (stations trial.memory.base (packageDirectory root target)) trial.memory.base path
      (Text.utf8 source.text) trial.memory.tree after.memory.tree
  /-- In each tree on the way, the source file is as it was or complete. -/
  meanwhile : ∃ trees, Goes trial trees after ∧ ∀ target source,
    resolveTarget L name = .ok target → render L indent target = .ok source → ∀ t ∈ trees,
      Underway (stations trial.memory.base (packageDirectory root target))
        (placeOf trial.memory.base (root.join (relativePath target))) (Text.utf8 source.text)
        trial.memory.tree t
  /-- After a success, the same call leaves everything as it is, whichever of its steps fail. -/
  repeated : ∀ path, answer = .ok path → ∀ again : Trial, again.memory = after.memory →
    ∀ x, (implementNamed Trial.host L indent root name again).2.memory.tree.get? x
      = after.memory.tree.get? x

/-- A call that is refused before it does anything. -/
theorem Contained.of_refused (L : Library) (indent : Nat) (root : Path) (name : String)
    (trial : Trial) (e : StubError) : Contained L indent root name trial (.error e) trial where
  untouched _ _ _ := rfl
  failed _ _ := .inl rfl
  done path hpath := by cases hpath
  meanwhile := ⟨[], .refl trial, fun _ _ _ _ => List.forall_mem_nil _⟩
  repeated path hpath := by cases hpath

theorem implementNamed_refused {σ : Type} {host : Host (StateM σ)} {e : StubError}
    (h : resolveTarget L name = .error e ∨
      ∃ target, resolveTarget L name = .ok target ∧ render L indent target = .error e)
    (root : Path) (s : σ) :
    implementNamed host L indent root name s = (.error e, s) := by
  rcases h with h | ⟨target, htarget, h⟩
  · rw [implementNamed, h]
    rfl
  · rw [implementNamed, htarget]
    dsimp only [implement]
    rw [h]
    rfl

theorem implementNamed_eq (htarget : resolveTarget L name = .ok target)
    (hsource : render L indent target = .ok source) (root : Path) :
    implementNamed Trial.host L indent root name = writeSource Trial.host root target source := by
  rw [implementNamed, htarget]
  dsimp only [implement]
  rw [hsource]

/-- A call that gets as far as a source has written it or has failed to. -/
theorem Contained.of_render (hbinary : isBinaryName target.name = true)
    (htarget : resolveTarget L name = .ok target) (hsource : render L indent target = .ok source)
    (root : Path) (trial : Trial) :
    Contained L indent root name trial (writeSource Trial.host root target source trial).1
      (writeSource Trial.host root target source trial).2 := by
  obtain ⟨answer, trees, after, hwrite, hgoes, hunderway, houtcome⟩ :=
    writeSource_cases hbinary trial root source
  rw [hwrite]
  have hmeanwhile : ∃ trees, Goes trial trees after ∧ ∀ target source,
      resolveTarget L name = .ok target → render L indent target = .ok source → ∀ t ∈ trees,
        Underway (stations trial.memory.base (packageDirectory root target))
          (placeOf trial.memory.base (root.join (relativePath target)))
          (Text.utf8 source.text) trial.memory.tree t := by
    refine ⟨trees, hgoes, fun target' source' htarget' hsource' => ?_⟩
    rw [htarget] at htarget'
    cases htarget'
    rw [hsource] at hsource'
    cases hsource'
    exact hunderway
  rcases houtcome with ⟨⟨e, rfl, hnot⟩, hgrown⟩ | ⟨rfl, hprepared, hplaced⟩
  · exact {
      untouched := fun _ he habout => absurd (Except.error.inj he ▸ habout) hnot
      failed := fun _ _ => .inr ⟨target, htarget, hgrown⟩
      done := nofun
      meanwhile := hmeanwhile
      repeated := nofun }
  · refine {
      untouched := nofun
      failed := nofun
      done := fun path hpath => ?_
      meanwhile := hmeanwhile
      repeated := fun _ _ again hagain x => ?_ }
    · obtain rfl : sourcePath root target = path := Except.ok.inj hpath
      exact ⟨target, source, htarget, hsource, rfl, hplaced⟩
    · rw [← hgoes.base] at hprepared hplaced
      rw [← hagain] at hprepared hplaced ⊢
      rw [implementNamed_eq htarget hsource]
      exact writeSource_again hprepared (placeOf_of_find hplaced.found).2 x

/-- **Generating a source touches exactly its own file**, whichever operations fail. -/
theorem implementNamed_contained (hL : L.validate = .ok ()) (indent : Nat) (root : Path)
    (name : String) (trial : Trial) :
    Contained L indent root name trial (implementNamed Trial.host L indent root name trial).1
      (implementNamed Trial.host L indent root name trial).2 := by
  cases htarget : resolveTarget L name with
  | error e =>
    rw [implementNamed_refused (.inl htarget)]
    exact .of_refused L indent root name trial e
  | ok target =>
    cases hsource : render L indent target with
    | error e =>
      rw [implementNamed_refused (.inr ⟨target, htarget, hsource⟩)]
      exact .of_refused L indent root name trial e
    | ok source =>
      rw [implementNamed_eq htarget hsource]
      exact .of_render (isBinaryName_of_render hL htarget hsource) htarget hsource root trial

/-- A library with one interface of one member. -/
def shapes : Library :=
  ⟨[{ name := "a.Shape", members := [{ name := "area", returns := .primitive .int }] }], by decide⟩

theorem implementNamed_contained_shapes :
    shapes.validate = .ok () ∧
      (implementNamed Trial.host shapes 4 ⟨"out"⟩ "a.Shape" { memory := .atPlace ["w"] }).1
        = .ok ⟨"out/a/ShapeImpl.java"⟩ ∧
      Contained shapes 4 ⟨"out"⟩ "a.Shape" { memory := .atPlace ["w"] }
        (implementNamed Trial.host shapes 4 ⟨"out"⟩ "a.Shape" { memory := .atPlace ["w"] }).1
        (implementNamed Trial.host shapes 4 ⟨"out"⟩ "a.Shape" { memory := .atPlace ["w"] }).2 := by
  have hL : shapes.validate = .ok () := by decide +kernel
  exact ⟨hL, by decide +kernel,
    implementNamed_contained hL 4 ⟨"out"⟩ "a.Shape" { memory := .atPlace ["w"] }⟩

end Stubwright.Stub

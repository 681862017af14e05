import Stubwright.Proofs.Trials

/-!
# Files that are written beside their place

    fresh name ──stage──▶ file that is filled ──rename──▶ file in its place
                                  └────drop────▶ as it was

A file that is to appear as a whole is written under a fresh name first. `Writing` lists the trees
that are passed on the way, and `Underway` is what others see meanwhile: unless the file is itself
called like a fresh one, it is as it was or complete.

What fills the staged file is a program of its own. That it fills the file or fails is shown step by
step, from the last step to the first (`Filling`).
-/

namespace Stubwright.Host

open FileTree Trial

/-! ## Fresh names -/

theorem padded_toList (n : Nat) : ∃ zeros, (Memory.padded n).toList
    = List.replicate zeros '0' ++ Nat.toDigits 10 n := by
  refine ⟨Memory.freshLength - (toString n).length, ?_⟩
  rw [Memory.padded, String.toList_append, String.toList_ofList, Nat.toString_eq_ofList_toDigits,
    String.toList_ofList]

theorem isDigit_of_mem_padded {n : Nat} {c : Char} (h : c ∈ (Memory.padded n).toList) :
    c.isDigit = true := by
  obtain ⟨zeros, hpadded⟩ := padded_toList n
  rw [hpadded] at h
  rcases List.mem_append.mp h with h | h
  · rw [List.eq_of_mem_replicate h]
    decide
  · exact Nat.isDigit_of_mem_toDigits (by decide) (by decide) h

/-- The last character of a fresh name is a digit. -/
theorem exists_digit_getLast?_fresh (stem : String) (draw : Nat) :
    ∃ c, (stem ++ Memory.padded draw).toList.getLast? = some c ∧ c.isDigit = true := by
  have hne : (Memory.padded draw).toList ≠ [] := by
    obtain ⟨zeros, hpadded⟩ := padded_toList draw
    simp [hpadded, Nat.toDigits_ne_nil]
  refine ⟨(Memory.padded draw).toList.getLast hne, ?_, isDigit_of_mem_padded (List.getLast_mem hne)⟩
  rw [String.toList_append, List.getLast?_append_of_ne_nil _ hne,
    List.getLast?_eq_some_getLast hne]

theorem isComponent_fresh {stem : String} (h : '/' ∉ stem.toList) (draw : Nat) :
    IsComponent (stem ++ Memory.padded draw) := by
  obtain ⟨c, hlast, hdigit⟩ := exists_digit_getLast?_fresh stem draw
  have hne : ∀ s : String, (∀ c, s.toList.getLast? = some c → c.isDigit = false) →
      stem ++ Memory.padded draw ≠ s := by
    rintro s hs rfl
    rw [hs c hlast] at hdigit
    cases hdigit
  refine ⟨⟨hne _ (by simp), hne _ (by simp), hne _ (by simp)⟩, fun hslash => ?_⟩
  rw [String.toList_append] at hslash
  rcases List.mem_append.mp hslash with hslash | hslash
  · exact h hslash
  · exact absurd (isDigit_of_mem_padded hslash) (by decide)

/-- A fresh name leads down by one from its directory. -/
theorem placeOf_freshPath {stem : String} (h : '/' ∉ stem.toList) (base : Place) (memory : Memory)
    (directory : Path) (draw : Nat) :
    placeOf base (freshPath memory stem directory draw)
      = placeOf base ((Memory.absolute memory.base).join directory)
        ++ [stem ++ Memory.padded draw] :=
  placeOf_join_component (isComponent_fresh h draw) base _

/-! ## Trees on the way -/

/-- The trees a machine goes through while it writes a file whose content will satisfy `P`. -/
inductive Writing (base : Place) (path : Path) (P : Bytes → Prop) (before : FileTree) :
    FileTree → Prop
  /-- A file of a fresh name has some of the content. -/
  | staged {above : Place} {draw : Nat} {p : Path} {part : Bytes} {t : FileTree} :
    placeOf base p = above ++ [stagingStem ++ Memory.padded draw] →
    Staged base p part before t → Writing base path P before t
  | dropped {t : FileTree} : (∀ x, t.get? x = before.get? x) → Writing base path P before t
  | replaced {content : Bytes} {t : FileTree} :
    P content → Replaced base path content before t → Writing base path P before t

/-- The file at a place is as it was or complete. Elsewhere everything is as it was, apart from
directories at some places and a file of a fresh name. -/
structure Underway (places : List Place) (place : Place) (content : Bytes) (before t : FileTree) :
    Prop where
  own : t.get? place = before.get? place ∨
    (before.get? place = none ∧ t.get? place = some .directory) ∨
    t.get? place = some (.file content false)
  others : ∀ x, x ≠ place → t.get? x = before.get? x ∨
    (before.get? x = none ∧ (t.get? x = some .directory ∧ x ∈ places ∨
      ∃ draw, x.getLast? = some (stagingStem ++ Memory.padded draw)))

variable {places : List Place} {base place : Place} {path : Path} {content : Bytes}
  {before middle t : FileTree}

theorem Underway.of_grown (h : Grown places before t) : Underway places place content before t := by
  refine ⟨(h place).imp_right fun ⟨hnone, hdirectory, _⟩ => .inl ⟨hnone, hdirectory⟩, ?_⟩
  exact fun x _ => (h x).imp_right fun ⟨hnone, hdirectory, hmem⟩ => ⟨hnone, .inl ⟨hdirectory, hmem⟩⟩

theorem Writing.imp {P Q : Bytes → Prop} (h : Writing base path P before t)
    (himp : ∀ content, P content → Q content) : Writing base path Q before t := by
  cases h with
  | staged hplace hstaged => exact .staged hplace hstaged
  | dropped hsame => exact .dropped hsame
  | replaced hcontent hreplaced => exact .replaced (himp _ hcontent) hreplaced

/-- A file that is not called like a staged one is written out of sight. -/
theorem Writing.underway (h : Writing base path (· = content) before t)
    (hname : ∀ draw, (placeOf base path).getLast? ≠ some (stagingStem ++ Memory.padded draw)) :
    Underway [] (placeOf base path) content before t := by
  have hsame : ∀ {x : Place}, t.get? x = before.get? x → t.get? x = before.get? x ∨
      (before.get? x = none ∧ (t.get? x = some .directory ∧ x ∈ ([] : List Place) ∨
        ∃ draw, x.getLast? = some (stagingStem ++ Memory.padded draw))) := .inl
  cases h with
  | @staged above draw p some _ hplace hstaged =>
    have hlast : (placeOf base p).getLast? = .some (stagingStem ++ Memory.padded draw) := by
      rw [hplace, List.getLast?_concat]
    refine ⟨.inl (hstaged.elsewhere _ fun heq => hname draw (heq ▸ hlast)), fun x _ => ?_⟩
    by_cases hx : x = placeOf base p
    · exact .inr ⟨hx ▸ hstaged.fresh, .inr ⟨draw, hx ▸ hlast⟩⟩
    · exact hsame (hstaged.elsewhere x hx)
  | dropped h => exact ⟨.inl (h _), fun x _ => hsame (h x)⟩
  | replaced hcontent h =>
    refine ⟨.inr (.inr ?_), fun x hx => hsame (h.elsewhere x hx)⟩
    rw [(placeOf_of_find h.found).2, hcontent]

/-- What is underway after directories were added. -/
theorem Underway.grow (h : Grown places before middle) (hlater : Underway [] place content middle t) :
    Underway places place content before t := by
  refine ⟨?_, fun x hx => ?_⟩
  · rcases hlater.own with heq | ⟨hnone, hdirectory⟩ | hcomplete
    · rcases h place with hsame | ⟨hnone, hdirectory, -⟩
      · exact .inl (heq.trans hsame)
      · exact .inr (.inl ⟨hnone, heq.trans hdirectory⟩)
    · rcases h place with hsame | ⟨-, hmiddle, -⟩
      · exact .inr (.inl ⟨hsame ▸ hnone, hdirectory⟩)
      · rw [hmiddle] at hnone
        cases hnone
    · exact .inr (.inr hcomplete)
  · rcases hlater.others x hx with heq | ⟨hnone, hfresh⟩
    · rcases h x with hsame | ⟨hnone, hdirectory, hmem⟩
      · exact .inl (heq.trans hsame)
      · exact .inr ⟨hnone, .inl ⟨heq.trans hdirectory, hmem⟩⟩
    · rcases h x with hsame | ⟨-, hmiddle, -⟩
      · exact .inr ⟨hsame ▸ hnone, hfresh.imp_left fun ⟨_, hmem⟩ => by cases hmem⟩
      · rw [hmiddle] at hnone
        cases hnone

/-! ## Writing a file -/

section
variable {m : Type → Type} [Monad m] {ε : Type}

/-- Stages a file in a directory, has it filled, and puts it into its place. -/
def writeBeside (host : Host m) (directory path : Path) (unstaged unplaced : IoError → ε)
    (fill : Path → m (Except ε Unit)) : m (Except ε Unit) := do
  match ← host.stage directory with
  | .error e => return .error (unstaged e)
  | .ok staged =>
    match ← fill staged with
    | .error e =>
      host.discard staged
      return .error e
    | .ok () =>
      match ← host.rename staged path with
      | .error e =>
        host.discard staged
        return .error (unplaced e)
      | .ok () => return .ok ()

end

/-- What filling a staged file does: it stays staged, and if all went well, its content is as it is to
be. -/
structure Fills (P : Bytes → Prop) (before : FileTree) (p : Path) (trial : Trial) {ε : Type}
    (answer : Except ε Unit) (trees : List FileTree) (after : Trial) : Prop where
  goes : Goes trial trees after
  staged : ∀ t ∈ trees, ∃ content, Staged trial.memory.base p content before t
  filled : answer = .ok () →
    ∃ content, P content ∧ Staged trial.memory.base p content before after.memory.tree

/-- The program fills a staged file, or it fails. -/
def Filling (P : Bytes → Prop) (before : FileTree) (p : Path) {ε : Type}
    (program : StateM Trial (Except ε Unit)) (trial : Trial) : Prop :=
  ∃ answer trees after, program trial = (answer, after) ∧
    Fills P before p trial answer trees after

namespace Filling

variable {P : Bytes → Prop} {p : Path} {trial : Trial} {ε : Type}

theorem failed (e : ε) (trial : Trial) : Filling P before p (pure (.error e)) trial :=
  ⟨.error e, [], trial, rfl, .refl trial, List.forall_mem_nil _, nofun⟩

theorem done (hcontent : P content)
    (h : Staged trial.memory.base p content before trial.memory.tree) :
    Filling P before p (pure (.ok ()) : StateM Trial (Except ε Unit)) trial :=
  ⟨.ok (), [], trial, rfl, .refl trial, List.forall_mem_nil _, fun _ => ⟨content, hcontent, h⟩⟩

/-- A step that leaves the file staged comes before the rest. -/
theorem bind {α : Type} {step : StateM Trial α} {rest : α → StateM Trial (Except ε Unit)}
    {answer : α} {trees : List FileTree} {later : Trial} (hrun : step trial = (answer, later))
    (hgoes : Goes trial trees later)
    (hstaged : ∀ t ∈ trees, ∃ content, Staged trial.memory.base p content before t)
    (h : Filling P before p (rest answer) later) : Filling P before p (step >>= rest) trial := by
  obtain ⟨answer', trees', after, hrest, hgoes', hstaged', hfilled⟩ := h
  rw [hgoes.base] at hstaged' hfilled
  refine ⟨answer', trees ++ trees', after, ?_, hgoes.trans hgoes', ?_, hfilled⟩
  · rw [bind_apply, hrun]
    exact hrest
  · exact List.forall_mem_append.mpr ⟨hstaged, hstaged'⟩

/-- More is appended, or that fails. -/
theorem append (h : Staged trial.memory.base p content before trial.memory.tree) (more : Bytes)
    {rest : Except IoError Unit → StateM Trial (Except ε Unit)}
    (herror : ∀ e later, Filling P before p (rest (.error e)) later)
    (hrest : ∀ later, later.memory.base = trial.memory.base →
      Staged later.memory.base p (content ++ more) before later.memory.tree →
      Filling P before p (rest (.ok ())) later) :
    Filling P before p (Trial.host.append p more >>= rest) trial := by
  obtain ⟨answer, trees, later, hrun, hgoes, hstaged, hfilled⟩ := append_cases h more
  refine .bind hrun hgoes hstaged ?_
  cases answer with
  | error e => exact herror e later
  | ok u =>
    refine hrest later hgoes.base ?_
    rw [hgoes.base]
    exact hfilled rfl

/-- A file is read, or that fails. -/
theorem readAll (source : Path) {rest : Except IoError Bytes → StateM Trial (Except ε Unit)}
    (herror : ∀ e later, Filling P before p (rest (.error e)) later)
    (hrest : ∀ later place content executable, later.memory = trial.memory →
      trial.memory.tree.find trial.memory.base source = .ok (place, .file content executable) →
      Filling P before p (rest (.ok content)) later) :
    Filling P before p (Trial.host.readAll source >>= rest) trial := by
  obtain ⟨answer, later, hrun, hgoes, hread⟩ := readAll_cases trial source
  refine .bind hrun hgoes (List.forall_mem_nil _) ?_
  cases answer with
  | error e => exact herror e later
  | ok content =>
    obtain ⟨place, executable, hfound⟩ := hread content rfl
    exact hrest later place content executable hgoes.memory_same hfound

end Filling

/-- What writing a file does: it fails and leaves everything as it was, or the file is there with its
content. -/
structure WritesFile (P : Bytes → Prop) (path : Path) (trial : Trial) {ε : Type}
    (answer : Except ε Unit) (trees : List FileTree) (after : Trial) : Prop where
  goes : Goes trial trees after
  passed : ∀ t ∈ trees, Writing trial.memory.base path P trial.memory.tree t
  failed : ∀ e, answer = .error e →
    ∀ x, after.memory.tree.get? x = trial.memory.tree.get? x
  done : answer = .ok () →
    ∃ content, P content ∧
      Replaced trial.memory.base path content trial.memory.tree after.memory.tree

namespace WritesFile

variable {P : Bytes → Prop} {trial filled after : Trial} {ε : Type} {trees : List FileTree}

/-- A file that was staged and filled is dropped. -/
theorem of_dropped (hgoes : Goes trial trees filled)
    (hwriting : ∀ t ∈ trees, Writing trial.memory.base path P trial.memory.tree t) (e : ε)
    (hlast : Goes filled [t] after) (hsame : ∀ x, t.get? x = trial.memory.tree.get? x) :
    WritesFile P path trial (.error e) (trees ++ [t]) after where
  goes := hgoes.trans hlast
  passed := List.forall_mem_append.mpr ⟨hwriting, List.forall_mem_singleton.mpr (.dropped hsame)⟩
  failed _ _ x := by rw [hlast.tree_eq, hsame]
  done := nofun

/-- A file that was staged and filled is put into its place. -/
theorem of_put (hgoes : Goes trial trees filled)
    (hwriting : ∀ t ∈ trees, Writing trial.memory.base path P trial.memory.tree t)
    (hcontent : P content) (hlast : Goes filled [t] after)
    (hput : Replaced trial.memory.base path content trial.memory.tree t) :
    WritesFile P path trial (.ok () : Except ε Unit) (trees ++ [t]) after where
  goes := hgoes.trans hlast
  passed := List.forall_mem_append.mpr
    ⟨hwriting, List.forall_mem_singleton.mpr (.replaced hcontent hput)⟩
  failed := nofun
  done _ := ⟨content, hcontent, hlast.tree_eq ▸ hput⟩

end WritesFile

/-- **A file is written as a whole or not at all**, whichever steps fail. -/
theorem writeBeside_cases {ε : Type} {P : Bytes → Prop} (trial : Trial) (directory path : Path)
    (unstaged unplaced : IoError → ε) (fill : Path → StateM Trial (Except ε Unit))
    (hfill : ∀ p opened, opened.memory.base = trial.memory.base →
      Staged opened.memory.base p [] trial.memory.tree opened.memory.tree →
      Filling P trial.memory.tree p (fill p) opened) :
    ∃ answer trees after,
      writeBeside Trial.host directory path unstaged unplaced fill trial = (answer, after) ∧
        WritesFile P path trial answer trees after := by
  rw [writeBeside, bind_apply]
  rcases stage_cases trial directory with
    ⟨e, after, hrun, hgoes⟩ | ⟨draw, t, opened, hrun, hgoes, hstaged⟩
  · rw [hrun]
    refine ⟨_, [], after, rfl, hgoes, List.forall_mem_nil _, fun _ _ x => ?_, nofun⟩
    rw [hgoes.tree_same]
  · have hslash : '/' ∉ stagingStem.toList := by decide
    have hplace := placeOf_freshPath hslash trial.memory.base trial.memory directory draw
    rw [hrun]
    dsimp only
    generalize freshPath trial.memory stagingStem directory draw = p at hstaged hplace
    have hopened : Staged opened.memory.base p [] trial.memory.tree opened.memory.tree := by
      rw [hgoes.base, hgoes.tree_eq]
      exact hstaged
    obtain ⟨answer, trees, filled, hrun', hfills⟩ := hfill p opened hgoes.base hopened
    have hgone : Goes trial (t :: trees) filled := hgoes.trans hfills.goes
    have hwriting : ∀ t' ∈ t :: trees, Writing trial.memory.base path P trial.memory.tree t' := by
      refine List.forall_mem_cons.mpr ⟨.staged hplace hstaged, fun t' ht' => ?_⟩
      obtain ⟨some, hsome⟩ := hfills.staged t' ht'
      rw [hgoes.base] at hsome
      exact .staged hplace hsome
    rw [bind_apply, hrun']
    cases answer with
    | error e =>
      obtain ⟨some, hstill⟩ := hfills.goes.last (P := fun t => ∃ some,
        Staged opened.memory.base p some trial.memory.tree t) ⟨_, hopened⟩ hfills.staged
      rw [← hfills.goes.base] at hstill
      obtain ⟨t', after, hrun'', hlast, hsame⟩ := discard_cases hstill
      dsimp only
      rw [bind_apply, hrun'']
      exact ⟨_, _, after, rfl, .of_dropped hgone hwriting e hlast hsame⟩
    | ok u =>
      obtain ⟨content, hcontent, hstill⟩ := hfills.filled rfl
      rw [← hfills.goes.base] at hstill
      dsimp only
      rw [bind_apply]
      rcases put_cases hstill path with
        ⟨e, failed, t', after, hrun'', hdiscard, hlast, hsame⟩ | ⟨t', after, hrun'', hlast, hput⟩
      · rw [hrun'']
        dsimp only
        rw [bind_apply, hdiscard]
        exact ⟨_, _, after, rfl, .of_dropped hgone hwriting _ hlast hsame⟩
      · rw [hgone.base] at hput
        rw [hrun'']
        exact ⟨_, _, after, rfl, .of_put hgone hwriting hcontent hlast hput⟩

/-! ## Writing a file where directories are missing -/

/-- What making directories and then writing a file does: it fails and adds no more than directories,
or the file is there with its content. On the way, a file that is not called like a staged one is as it
was or complete. -/
structure Delivers (places : List Place) (P : Bytes → Prop) (path : Path) (trial : Trial) {ε : Type}
    (answer : Except ε Unit) (trees : List FileTree) (after : Trial) : Prop where
  goes : Goes trial trees after
  failed : ∀ e, answer = .error e → Grown places trial.memory.tree after.memory.tree
  done : answer = .ok () → ∃ content, P content ∧
    Placed places trial.memory.base path content trial.memory.tree after.memory.tree
  passed : ∀ content, (∀ written, P written → written = content) →
    (∀ draw, (placeOf trial.memory.base path).getLast?
      ≠ some (stagingStem ++ Memory.padded draw)) →
    ∀ t ∈ trees, Underway places (placeOf trial.memory.base path) content trial.memory.tree t

/-- The file is written after the directories were made. -/
theorem Delivers.of_made {P : Bytes → Prop} {p : Path} {trial prepared after : Trial} {ε : Type}
    {made : Except IoError Unit} {answer : Except ε Unit} {trees trees' : List FileTree}
    (h : Makes p trial made trees prepared)
    (hwrites : WritesFile P path prepared answer trees' after) :
    Delivers (stations trial.memory.base p) P path trial answer (trees ++ trees') after where
  goes := h.goes.trans hwrites.goes
  failed e he x := by
    rw [hwrites.failed e he]
    exact h.grown_after x
  done hanswer := by
    obtain ⟨content, hcontent, hreplaced⟩ := hwrites.done hanswer
    rw [h.goes.base] at hreplaced
    exact ⟨content, hcontent, hreplaced.placed h.grown_after⟩
  passed content hcontent hname := by
    refine List.forall_mem_append.mpr ⟨fun t ht => .of_grown (h.grown t ht), fun t ht => ?_⟩
    have hwriting := (hwrites.passed t ht).imp hcontent
    rw [h.goes.base] at hwriting
    exact (hwriting.underway hname).grow h.grown_after

end Stubwright.Host

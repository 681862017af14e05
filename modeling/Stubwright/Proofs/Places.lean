import Mathlib.Data.List.DropRight
import Stubwright.Host.Directories
import Stubwright.Host.FileTree
import Stubwright.Proofs.Validation

/-!
# Where a path leads

    path ──pieces──▶ names ──stepTo──▶ places on the way (stations) ──▶ place

A file tree follows a path through directories, and gives up where there is none. If it arrives, it
does so at a place that the path alone decides (`placeOf`), over places that the path alone decides
(`stations`). So what happens at a place can be told before the directories on the way are there.

A path names a slot for a new entry, and what is put there is found by it (`Leads.find`).
-/

namespace Stubwright.Host

open Library (bind_eq_ok)

/-! ## Following names -/

/-- The place one name further. -/
def stepTo (place : Place) (name : String) : Place :=
  if name.isEmpty || name == "." then place
  else if name == ".." then place.dropLast
  else place ++ [name]

/-- The places passed when names are followed, both ends among them. -/
def route (place : Place) : List String → List Place
  | [] => [place]
  | name :: names => place :: route (stepTo place name) names

/-- A name that leads down by one. -/
structure IsProper (name : String) : Prop where
  nonempty : name ≠ ""
  not_here : name ≠ "."
  not_up : name ≠ ".."

theorem stepTo_proper {name : String} (h : IsProper name) (place : Place) :
    stepTo place name = place ++ [name] := by
  simp [stepTo, h.nonempty, h.not_here, h.not_up]

@[simp] theorem stepTo_empty (place : Place) : stepTo place "" = place := rfl

theorem foldl_stepTo_empties {names : List String} (h : ∀ name ∈ names, name = "")
    (place : Place) : names.foldl stepTo place = place := by
  induction names with
  | nil => rfl
  | cons name names ih =>
    rw [List.forall_mem_cons] at h
    rw [List.foldl_cons, h.1, stepTo_empty, ih h.2]

theorem start_mem_route (place : Place) (names : List String) : place ∈ route place names := by
  cases names <;> exact List.mem_cons_self

theorem end_mem_route (place : Place) (names : List String) :
    names.foldl stepTo place ∈ route place names := by
  induction names generalizing place with
  | nil => exact List.mem_cons_self
  | cons name names ih => exact List.mem_cons_of_mem _ (ih _)

theorem mem_route_append {place x : Place} {first later : List String} :
    x ∈ route place (first ++ later) ↔
      x ∈ route place first ∨ x ∈ route (first.foldl stepTo place) later := by
  induction first generalizing place with
  | nil =>
    simp only [List.nil_append, route, List.mem_singleton, List.foldl_nil]
    exact ⟨.inr, fun h => h.elim (fun h => h ▸ start_mem_route place later) id⟩
  | cons name first ih =>
    simp only [List.cons_append, route, List.mem_cons, ih, List.foldl_cons, or_assoc]

/-- Names that lead down pass only what is below. -/
theorem prefix_of_mem_route {names : List String} (h : ∀ name ∈ names, IsProper name)
    {place x : Place} (hx : x ∈ route place names) : place <+: x := by
  induction names generalizing place with
  | nil =>
    obtain rfl : x = place := List.mem_singleton.mp hx
    exact List.prefix_rfl
  | cons name names ih =>
    rw [List.forall_mem_cons] at h
    rcases List.mem_cons.mp hx with rfl | hx
    · exact List.prefix_rfl
    · have hbelow := ih h.2 hx
      rw [stepTo_proper h.1] at hbelow
      exact (List.prefix_append place [name]).trans hbelow

namespace FileTree

variable {t t' : FileTree} {base place last : Place} {p q : Path} {names : List String}

theorem descend_eq_ok {name : String} {next : Place} (h : t.descend place name = .ok next) :
    t.get? place = some .directory ∧ next = stepTo place name := by
  unfold descend at h
  split at h
  · cases h
  · cases h
  · next hdirectory =>
    refine ⟨hdirectory, ?_⟩
    unfold stepTo
    split at h
    · next hhere =>
      cases h
      rw [if_pos hhere]
    · next hhere =>
      rw [if_neg hhere]
      split at h
      · next hup =>
        cases h
        rw [if_pos hup]
      · next hup =>
        rw [if_neg hup]
        split at h
        · cases h
        · cases h
          rfl

/-- The directories of a tree are directories of another. -/
def KeepsDirectories (t t' : FileTree) : Prop :=
  ∀ place, t.get? place = some .directory → t'.get? place = some .directory

theorem descend_keeps (hkeeps : t.get? place = some .directory → t'.get? place = some .directory)
    {name : String} {next : Place} (h : t.descend place name = .ok next) :
    t'.descend place name = .ok next := by
  have hdirectory := (descend_eq_ok h).1
  unfold descend at h ⊢
  rw [hdirectory] at h
  rw [hkeeps hdirectory]
  exact h

theorem follow_cons (name : String) :
    t.follow place (name :: names) = t.descend place name >>= fun next => t.follow next names := rfl

theorem follow_append (first later : List String) :
    t.follow place (first ++ later) =
      t.follow place first >>= fun next => t.follow next later := by
  induction first generalizing place with
  | nil => rfl
  | cons name first ih =>
    rw [List.cons_append, follow_cons, follow_cons]
    cases t.descend place name with
    | error e => rfl
    | ok next => exact ih

/-- **A path is followed through directories** to the place that it leads to by its names alone. -/
theorem follow_eq_ok (h : t.follow place names = .ok last) :
    last = names.foldl stepTo place ∧
      ∀ x ∈ route place names, x = last ∨ t.get? x = some .directory := by
  induction names generalizing place with
  | nil =>
    cases h
    exact ⟨rfl, fun x hx => .inl (List.mem_singleton.mp hx)⟩
  | cons name names ih =>
    rw [follow_cons, bind_eq_ok] at h
    obtain ⟨next, hnext, h⟩ := h
    obtain ⟨hdirectory, rfl⟩ := descend_eq_ok hnext
    obtain ⟨hlast, hroute⟩ := ih h
    refine ⟨hlast, fun x hx => ?_⟩
    rcases List.mem_cons.mp hx with rfl | hx
    · exact .inr hdirectory
    · exact hroute x hx

/-- A path is followed to the same place, as long as the directories on the way stay. -/
theorem follow_keeps (hkeeps : ∀ x ∈ route place names,
      t.get? x = some .directory → t'.get? x = some .directory)
    (h : t.follow place names = .ok last) : t'.follow place names = .ok last := by
  induction names generalizing place with
  | nil => exact h
  | cons name names ih =>
    rw [follow_cons, bind_eq_ok] at h
    obtain ⟨next, hnext, h⟩ := h
    rw [follow_cons, descend_keeps (hkeeps place List.mem_cons_self) hnext]
    obtain rfl := (descend_eq_ok hnext).2
    exact ih (fun x hx => hkeeps x (List.mem_cons_of_mem _ hx)) h

theorem follow_empties (h : ∀ name ∈ names, name = "") (hdirectory : t.get? place = some .directory) :
    t.follow place names = .ok place := by
  induction names with
  | nil => rfl
  | cons name names ih =>
    rw [List.forall_mem_cons] at h
    rw [follow_cons, h.1, descend, hdirectory]
    exact ih h.2

/-! ## Where a path leads -/

/-- The place a path leads to, whatever is there. -/
def placeOf (base : Place) (p : Path) : Place := (startOf base p).2.foldl stepTo (startOf base p).1

/-- The places passed on the way. -/
def stations (base : Place) (p : Path) : List Place := route (startOf base p).1 (startOf base p).2

theorem placeOf_mem_stations (base : Place) (p : Path) : placeOf base p ∈ stations base p :=
  end_mem_route _ _

theorem find_eq_ok_iff {node : Node} :
    t.find base p = .ok (place, node) ↔
      checkPath p = .ok () ∧ t.follow (startOf base p).1 (startOf base p).2 = .ok place ∧
        t.get? place = some node := by
  unfold find
  rw [bind_eq_ok]
  dsimp only
  constructor
  · rintro ⟨⟨⟩, hcheck, h⟩
    obtain ⟨place', hfollow, h⟩ := bind_eq_ok.mp h
    split at h
    · next node' hnode =>
      cases h
      exact ⟨hcheck, hfollow, hnode⟩
    · cases h
  · rintro ⟨hcheck, hfollow, hnode⟩
    refine ⟨(), hcheck, bind_eq_ok.mpr ⟨place, hfollow, ?_⟩⟩
    rw [hnode]
    rfl

theorem placeOf_of_find {node : Node} (h : t.find base p = .ok (place, node)) :
    place = placeOf base p ∧ t.get? (placeOf base p) = some node := by
  obtain ⟨-, hfollow, hnode⟩ := find_eq_ok_iff.mp h
  obtain rfl := (follow_eq_ok hfollow).1
  exact ⟨rfl, hnode⟩

/-- Where a directory is found, directories are on the whole way to it. -/
theorem directories_of_find (h : t.find base p = .ok (place, .directory)) :
    ∀ x ∈ stations base p, t.get? x = some .directory := by
  obtain ⟨-, hfollow, hnode⟩ := find_eq_ok_iff.mp h
  intro x hx
  rcases (follow_eq_ok hfollow).2 x hx with rfl | hdirectory
  · exact hnode
  · exact hdirectory

/-- Where something was found, what stands there now is found, as long as the directories on the way
stay. -/
theorem find_keeps (hkeeps : ∀ x ∈ stations base p,
      t.get? x = some .directory → t'.get? x = some .directory)
    {node node' : Node} (h : t.find base p = .ok (place, node))
    (hnode : t'.get? place = some node') : t'.find base p = .ok (place, node') := by
  obtain ⟨hcheck, hfollow, -⟩ := find_eq_ok_iff.mp h
  exact find_eq_ok_iff.mpr ⟨hcheck, follow_keeps hkeeps hfollow, hnode⟩

/-! ## Where a new entry goes -/

/-- What is said by a slot that has a name: the path leads there, over directories. -/
structure Leads (t : FileTree) (base : Place) (p : Path) (s : Slot) (name : String) : Prop where
  valid : checkPath p = .ok ()
  proper : IsProper name
  short : name.utf8ByteSize ≤ nameLimit
  parent : t.get? s.parent = some .directory
  /-- The names of the path, up to slashes that follow the last of them. -/
  names : ∃ before slashes, (startOf base p).2 = before ++ name :: slashes ∧
    (∀ slash ∈ slashes, slash = "") ∧ (s.slashed = false → slashes = []) ∧
    t.follow (startOf base p).1 before = .ok s.parent

/-- The last name of a path, if there is one, with the names before it and the slashes behind it. -/
theorem exists_last {names : List String} {name : String}
    (h : (names.reverse.dropWhile (·.isEmpty)).reverse.getLast? = some name) :
    name ≠ "" ∧ ∃ slashes,
      names = (names.reverse.dropWhile (·.isEmpty)).reverse.dropLast ++ name :: slashes ∧
      (∀ slash ∈ slashes, slash = "") ∧ (names.getLast? ≠ some "" → slashes = []) := by
  have hne : name ≠ "" := by
    intro hempty
    have hhead := List.head?_dropWhile_not (fun name : String => name.isEmpty) names.reverse
    rw [List.getLast?_reverse] at h
    rw [h, hempty] at hhead
    exact absurd hhead (by decide)
  have hslashes : ∀ slash ∈ (names.reverse.takeWhile (·.isEmpty)).reverse, slash = "" := by
    intro slash hslash
    exact String.isEmpty_iff.mp (List.mem_takeWhile_imp (List.mem_reverse.mp hslash))
  have hsplit : names = (names.reverse.dropWhile (·.isEmpty)).reverse.dropLast ++
      name :: (names.reverse.takeWhile (·.isEmpty)).reverse := by
    rw [← List.singleton_append, ← List.append_assoc, List.dropLast_append_getLast? name h,
      ← List.reverse_append, List.takeWhile_append_dropWhile, List.reverse_reverse]
  refine ⟨hne, _, hsplit, hslashes, fun hlast => ?_⟩
  generalize (names.reverse.takeWhile (·.isEmpty)).reverse = slashes at hsplit hslashes
  by_contra hnonempty
  refine hlast ?_
  rw [hsplit, List.getLast?_append, List.getLast?_cons, List.getLast?_eq_some_getLast hnonempty]
  simp [hslashes _ (List.getLast_mem hnonempty)]

theorem leads_of_slot {s : Slot} {name : String} (h : t.slot base p = .ok s)
    (hname : s.name? = some name) : Leads t base p s name := by
  unfold slot at h
  rw [bind_eq_ok] at h
  obtain ⟨⟨⟩, hcheck, h⟩ := h
  dsimp only at h
  obtain ⟨parent, hfollow, h⟩ := bind_eq_ok.mp h
  split at h
  · cases h
  · cases h
  · next hparent =>
    split at h
    · cases h
      cases hname
    · next last hlast =>
      split at h
      · cases h
        cases hname
      · next hdots =>
        split at h
        · cases h
        · next hshort =>
          cases h
          obtain rfl : last = name := Option.some.inj hname
          obtain ⟨hne, slashes, hnames, hslashes, hnone⟩ := exists_last hlast
          have hdots : last ≠ "." ∧ last ≠ ".." := by simpa using hdots
          refine ⟨hcheck, ⟨hne, hdots.1, hdots.2⟩, Nat.le_of_not_lt hshort, hparent, _, slashes,
            hnames, hslashes, fun hslashed => hnone ?_, hfollow⟩
          simpa using hslashed

/-- The path leads to the name in the directory of the slot. -/
theorem Leads.placeOf_eq {s : Slot} {name : String} (h : Leads t base p s name) :
    placeOf base p = s.parent ++ [name] := by
  obtain ⟨before, slashes, hnames, hslashes, -, hfollow⟩ := h.names
  rw [placeOf, hnames, List.foldl_append, List.foldl_cons, ← (follow_eq_ok hfollow).1,
    stepTo_proper h.proper, foldl_stepTo_empties hslashes]

/-- **What is put into a slot is found there**, as long as the directories on the way stay. Slashes
behind the name lead to nothing but directories. -/
theorem Leads.find {s : Slot} {name : String} (h : Leads t base p s name)
    (hkeeps : KeepsDirectories t t') {node : Node} (hnode : t'.get? (placeOf base p) = some node)
    (hslashed : s.slashed = false ∨ node = .directory) :
    t'.find base p = .ok (placeOf base p, node) := by
  obtain ⟨before, slashes, hnames, hslashes, hnone, hfollow⟩ := h.names
  refine find_eq_ok_iff.mpr ⟨h.valid, ?_, hnode⟩
  have hdescend : t'.descend s.parent name = .ok (placeOf base p) := by
    rw [descend, hkeeps _ h.parent, h.placeOf_eq]
    simp [h.proper.nonempty, h.proper.not_here, h.proper.not_up, Nat.not_lt.mpr h.short]
  have hrest : t'.follow (placeOf base p) slashes = .ok (placeOf base p) := by
    rcases hslashed with hslashed | rfl
    · rw [hnone hslashed]
      rfl
    · exact follow_empties hslashes hnode
  rw [hnames, follow_append, follow_keeps (fun x _ => hkeeps x) hfollow]
  show t'.follow s.parent (name :: slashes) = _
  rw [follow_cons, hdescend]
  exact hrest

end FileTree
end Stubwright.Host

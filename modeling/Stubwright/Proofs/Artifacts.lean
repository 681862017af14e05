import Mathlib.Data.List.Induction
import Mathlib.Order.Bounds.Basic
import Stubwright.Build.Artifact

/-!
# Artifacts go forward

    written ──advance──▶ artifact, answer ──advance──▶ artifact, answer ──▶ …

An artifact is asked to move on, again and again, to any states in any order. Main statement
(`advanceAll_forward`): it is always in the furthest state that was asked for, and it is where the
first request for that state put it. A request moves it exactly if it goes further than all before;
every other request leaves state and path alone.

What is known of a run is its `Course`. One more request keeps it (`Course.concat`), so that every run
has it.
-/

namespace Stubwright.Build

/-! ## The order of the states -/

namespace ArtifactState

theorem rank_injective : Function.Injective rank := by
  intro a b h
  cases a <;> cases b <;> first | rfl | cases h

/-- A state is further than another if it comes later in the life of an artifact. -/
instance : LinearOrder ArtifactState := LinearOrder.lift' rank rank_injective

/-- A file that is written is at the beginning. -/
theorem written_le (state : ArtifactState) : written ≤ state := Nat.zero_le state.rank

end ArtifactState

namespace Artifact

/-! ## Requests -/

/-- A request to move on to a state at a path. -/
structure Request where
  state : ArtifactState
  path : Path
  deriving DecidableEq, Repr

/-- Puts one more request to an artifact and notes the answer behind those it gave before. -/
def put (run : Artifact × List Bool) (r : Request) : Artifact × List Bool :=
  let (next, moved) := run.1.advance r.state r.path
  (next, run.2 ++ [moved])

/-- Puts requests to an artifact one after the other: the artifact after the last, and which of them
moved it. -/
def advanceAll (a : Artifact) (requests : List Request) : Artifact × List Bool :=
  requests.foldl put (a, [])

theorem advanceAll_concat (a : Artifact) (requests : List Request) (r : Request) :
    a.advanceAll (requests ++ [r]) = put (a.advanceAll requests) r := by
  rw [advanceAll, List.foldl_append]
  rfl

variable {path : Path} {requests before after : List Request} {q r : Request} {last : Artifact}
  {answers : List Bool}

/-- All that a request can do: state and path change together, or not at all. -/
theorem put_cases (last : Artifact) (answers : List Bool) (r : Request) :
    (last.state < r.state ∧ put (last, answers) r = (⟨r.path, r.state⟩, answers ++ [true])) ∨
    (r.state ≤ last.state ∧ put (last, answers) r = (last, answers ++ [false])) := by
  by_cases h : last.state < r.state
  · have hmoved : last.advance r.state r.path = (⟨r.path, r.state⟩, true) := if_pos h
    exact Or.inl ⟨h, by rw [put, hmoved]⟩
  · have hstayed : last.advance r.state r.path = (last, false) := if_neg h
    exact Or.inr ⟨not_lt.mp h, by rw [put, hstayed]⟩

/-! ## The course of a run -/

/-- What has become of a file that was written at `path`, and how it answered the requests. -/
structure Course (path : Path) (requests : List Request) (last : Artifact) (answers : List Bool) :
    Prop where
  /-- The state is the furthest of the first one and all that were asked for. -/
  furthest : IsGreatest {s | s = .written ∨ ∃ q ∈ requests, q.state = s} last.state
  /-- There is an answer to each request. -/
  answered : answers.length = requests.length
  /-- A request is granted if it goes beyond the first state and beyond all requests before it. -/
  granted : ∀ before q after, requests = before ++ q :: after →
    (answers[before.length]? = some true ↔
      .written < q.state ∧ ∀ p ∈ before, p.state < q.state)
  /-- If no request was granted, nothing has changed. -/
  untouched : true ∉ answers → last = written path
  /-- Otherwise the path is the one given with the first request for the state. -/
  placed : true ∈ answers → ∃ before q after, requests = before ++ q :: after ∧
    q.state = last.state ∧ (∀ p ∈ before, p.state ≠ last.state) ∧ last.path = q.path

namespace Course

theorem start (path : Path) : Course path [] (written path) [] where
  furthest := by
    refine ⟨Or.inl rfl, ?_⟩
    rintro s (rfl | ⟨q, hq, -⟩)
    · exact le_refl _
    · cases hq
  answered := rfl
  granted := fun before q after h => absurd h.symm (by simp)
  untouched := fun _ => rfl
  placed := fun h => by cases h

/-- A state is ahead if it is beyond the first one and all that were asked for. -/
theorem lt_iff (h : Course path requests last answers) {s : ArtifactState} :
    last.state < s ↔ .written < s ∧ ∀ q ∈ requests, q.state < s := by
  constructor
  · intro hlt
    refine ⟨lt_of_le_of_lt (ArtifactState.written_le _) hlt, fun q hq => ?_⟩
    exact lt_of_le_of_lt (h.furthest.2 (Or.inr ⟨q, hq, rfl⟩)) hlt
  · rintro ⟨hwritten, hall⟩
    rcases h.furthest.1 with hstate | ⟨q, hq, hstate⟩
    · rwa [hstate]
    · exact hstate ▸ hall q hq

/-- One more answer, which says whether the request was ahead, is as the others are. -/
theorem granted_concat (h : Course path requests last answers) {moved : Bool}
    (hmoved : moved = true ↔ last.state < r.state)
    (hrequests : requests ++ [r] = before ++ q :: after) :
    (answers ++ [moved])[before.length]? = some true ↔
      .written < q.state ∧ ∀ p ∈ before, p.state < q.state := by
  rcases List.eq_nil_or_concat after with rfl | ⟨after, p, rfl⟩
  · -- the new request
    obtain ⟨rfl, rfl⟩ := List.append_singleton_inj.mp hrequests
    rw [← h.answered, List.getElem?_concat_length, Option.some.injEq, hmoved, h.lt_iff]
  · -- one of those before
    have hrequests : requests ++ [r] = (before ++ q :: after) ++ [p] := by simpa using hrequests
    obtain ⟨hbefore, -⟩ := List.append_singleton_inj.mp hrequests
    have hlength : before.length < answers.length := by
      rw [h.answered, hbefore, List.length_append, List.length_cons]
      omega
    rw [List.getElem?_append_left hlength]
    exact h.granted before q after hbefore

/-- The course after a request that moves the artifact. -/
theorem concat_moved (h : Course path requests last answers) (hlt : last.state < r.state) :
    Course path (requests ++ [r]) ⟨r.path, r.state⟩ (answers ++ [true]) where
  furthest := by
    refine ⟨Or.inr ⟨r, List.mem_append_right _ List.mem_cons_self, rfl⟩, ?_⟩
    rintro s (rfl | ⟨q, hq, rfl⟩)
    · exact ArtifactState.written_le _
    · rcases List.mem_append.mp hq with hq | hq
      · exact le_of_lt ((h.lt_iff.mp hlt).2 q hq)
      · rw [List.mem_singleton.mp hq]
  answered := by simp [h.answered]
  granted := fun _ _ _ => h.granted_concat (by simp [hlt])
  untouched := fun hnone => absurd (List.mem_append_right _ List.mem_cons_self) hnone
  placed := fun _ =>
    ⟨requests, r, [], rfl, rfl, fun q hq => ne_of_lt ((h.lt_iff.mp hlt).2 q hq), rfl⟩

/-- The course after a request that does not. -/
theorem concat_stayed (h : Course path requests last answers) (hle : r.state ≤ last.state) :
    Course path (requests ++ [r]) last (answers ++ [false]) where
  furthest := by
    constructor
    · rcases h.furthest.1 with hstate | ⟨q, hq, hstate⟩
      · exact Or.inl hstate
      · exact Or.inr ⟨q, List.mem_append_left _ hq, hstate⟩
    · rintro s (rfl | ⟨q, hq, rfl⟩)
      · exact ArtifactState.written_le _
      · rcases List.mem_append.mp hq with hq | hq
        · exact h.furthest.2 (Or.inr ⟨q, hq, rfl⟩)
        · rwa [List.mem_singleton.mp hq]
  answered := by simp [h.answered]
  granted := fun _ _ _ => h.granted_concat (by simp [hle])
  untouched := fun hnone => h.untouched fun hsome => hnone (List.mem_append_left _ hsome)
  placed := by
    intro hsome
    have hsome : true ∈ answers := by simpa using hsome
    obtain ⟨before, q, after, rfl, hstate, hfirst, hpath⟩ := h.placed hsome
    exact ⟨before, q, after ++ [r], by simp, hstate, hfirst, hpath⟩

/-- **One more request keeps the course.** -/
theorem concat (h : Course path requests last answers) (r : Request) :
    Course path (requests ++ [r]) (put (last, answers) r).1 (put (last, answers) r).2 := by
  rcases put_cases last answers r with ⟨hlt, hput⟩ | ⟨hle, hput⟩
  · rw [hput]
    exact h.concat_moved hlt
  · rw [hput]
    exact h.concat_stayed hle

end Course

/-- Every run has its course. -/
theorem course_advanceAll (path : Path) (requests : List Request) :
    Course path requests ((written path).advanceAll requests).1
      ((written path).advanceAll requests).2 := by
  induction requests using List.reverseRecOn with
  | nil => exact .start path
  | append_singleton requests r ih =>
    rw [advanceAll_concat]
    exact ih.concat r

/-- **An artifact only goes forward.** Whatever is asked of a file that was written, in whatever order:
its state is the furthest that was asked for, a request is granted exactly if it goes beyond all before
it, and the path is the one of the first request for the state. A request that is granted sets state
and path, and one that is not leaves both as they were. -/
theorem advanceAll_forward (path : Path) (requests : List Request) :
    Course path requests ((written path).advanceAll requests).1
      ((written path).advanceAll requests).2 ∧
    ∀ before r after, requests = before ++ r :: after →
      ((written path).advanceAll (before ++ [r])).1 =
        if ((written path).advanceAll requests).2[before.length]? = some true then
          ⟨r.path, r.state⟩
        else ((written path).advanceAll before).1 := by
  have hcourse := course_advanceAll path requests
  refine ⟨hcourse, fun before r after hrequests => ?_⟩
  -- whether the request was granted hangs only on those before it
  have hgranted := hcourse.granted before r after hrequests
  rw [← (course_advanceAll path before).lt_iff] at hgranted
  rw [advanceAll_concat]
  rcases put_cases ((written path).advanceAll before).1 ((written path).advanceAll before).2 r with
    ⟨hlt, hput⟩ | ⟨hle, hput⟩
  · rw [if_pos (hgranted.mpr hlt), hput]
  · rw [if_neg fun h => not_lt.mpr hle (hgranted.mp h), hput]

/-- Compiling twice, with a look back in between. -/
def compiledTwice : List Request :=
  [⟨.compiled, ⟨"a/TaskImpl.class"⟩⟩, ⟨.written, ⟨"a/TaskImpl.java"⟩⟩,
    ⟨.compiled, ⟨"b/TaskImpl.class"⟩⟩]

theorem advanceAll_forward_compiledTwice :
    (written ⟨"a/TaskImpl.java"⟩).advanceAll compiledTwice
        = (⟨⟨"a/TaskImpl.class"⟩, .compiled⟩, [true, false, false]) ∧
      compiledTwice = compiledTwice.take 2 ++ ⟨.compiled, ⟨"b/TaskImpl.class"⟩⟩ :: [] ∧
      ((written ⟨"a/TaskImpl.java"⟩).advanceAll
          (compiledTwice.take 2 ++ [⟨.compiled, ⟨"b/TaskImpl.class"⟩⟩])).1
        = ((written ⟨"a/TaskImpl.java"⟩).advanceAll (compiledTwice.take 2)).1 := by
  have hrun : (written ⟨"a/TaskImpl.java"⟩).advanceAll compiledTwice
      = (⟨⟨"a/TaskImpl.class"⟩, .compiled⟩, [true, false, false]) := by decide
  have hlast := (advanceAll_forward ⟨"a/TaskImpl.java"⟩ compiledTwice).2 (compiledTwice.take 2)
    ⟨.compiled, ⟨"b/TaskImpl.class"⟩⟩ [] rfl
  -- the third request was turned down
  rw [hrun, if_neg (by decide)] at hlast
  exact ⟨hrun, rfl, hlast⟩

end Artifact
end Stubwright.Build

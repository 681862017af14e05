import Mathlib.Data.List.Chain
import Stubwright.Proofs.Validation

/-!
# Cycles are found exactly

    names ──searchCycle──▶ finished names, or a way that closes ──validate──▶ circularReference

The graph has the declared types as its nodes and an edge from each of them to those of its
supertypes that are declared under the very name it writes. Main statement (`validate_cycles`): if
each type is legal by itself, a library is refused exactly if this graph has a cycle, loops included,
and the refusal shows one.

The two directions have different reasons. That a search which ends well has left no cycle is
`acc_of_validate`: a name is finished only after all it leads to. That a search which stops has met
one is shown here: the names on its way are a walk without repetition (`Walked`), whichever names are
finished, so a name met again closes it.
-/

namespace Stubwright.Library

variable {L : Library} {path pending finished : List String} {name : String}

/-! ## The graph of declared types -/

/-- The type declared under the first name lists the second as a supertype, and there is a type
declared under that. -/
def Inherits (L : Library) (a b : String) : Prop :=
  ∃ d ∈ L.types, d.name = a ∧ b ∈ d.supertypes ∧ b ∈ L.names

/-- Some type leads back to itself. -/
def Cyclic (L : Library) : Prop := ∃ name, Relation.TransGen L.Inherits name name

theorem inherits_iff {a b : String} : L.Inherits a b ↔ L.Extends a b ∧ b ∈ L.names := by
  constructor
  · rintro ⟨d, hd, hname, hb, hdeclared⟩
    exact ⟨extends_iff.mpr ⟨d, hd, hname, hb⟩, hdeclared⟩
  · rintro ⟨hb, hdeclared⟩
    obtain ⟨d, hd, hname, hb⟩ := extends_iff.mp hb
    exact ⟨d, hd, hname, hb, hdeclared⟩

/-! ## Ways that close -/

/-- A walk over distinct types and one step more, back to a type it has passed. -/
structure ClosedWay (L : Library) (way : List String) (last : String) : Prop where
  walk : (way ++ [last]).IsChain L.Inherits
  distinct : way.Nodup
  closes : last ∈ way

/-- A way that closes goes round a cycle. -/
theorem ClosedWay.cyclic {way : List String} {last : String} (h : ClosedWay L way last) :
    L.Cyclic := by
  obtain ⟨before, after, rfl⟩ := List.append_of_mem h.closes
  have hwalk : (before ++ (last :: (after ++ [last]))).IsChain L.Inherits := by
    simpa using h.walk
  have hround : (last :: (after ++ [last])).IsChain L.Inherits := hwalk.right_of_append
  -- the round has a first step, and the rest of it leads back
  obtain ⟨next, rest, hrest⟩ := List.exists_cons_of_ne_nil (List.concat_ne_nil last after)
  have hlast : (next :: rest).getLast (List.cons_ne_nil _ _) = last := by
    simp only [← hrest, List.getLast_append_singleton]
  rw [hrest, List.isChain_cons_cons] at hround
  obtain ⟨hfirst, hback⟩ := hround
  have hreach := List.relationReflTransGen_of_exists_isChain_cons rest hback hlast
  exact ⟨last, Relation.TransGen.head' hfirst hreach⟩

/-! ## The way of a search -/

/-- Where a search stands: `path` is a walk over distinct declared types, the latest first, and the
pending names are supertypes of the latest. -/
structure Walked (L : Library) (path pending : List String) : Prop where
  walk : path.IsChain fun later earlier => L.Inherits earlier later
  distinct : path.Nodup
  declared : ∀ n ∈ path, n ∈ L.names
  ahead : ∀ latest ∈ path.head?, ∀ n ∈ pending, L.Extends latest n

/-- A search starts with no way behind it. -/
theorem Walked.start (pending : List String) : Walked L [] pending where
  walk := .nil
  distinct := List.nodup_nil
  declared := List.forall_mem_nil _
  ahead := by simp

theorem Walked.rest (h : Walked L path (name :: pending)) : Walked L path pending where
  walk := h.walk
  distinct := h.distinct
  declared := h.declared
  ahead := fun latest hlatest n hn => h.ahead latest hlatest n (List.mem_cons_of_mem name hn)

/-- The step from the latest name to a pending one that is declared. -/
theorem Walked.next (h : Walked L path (name :: pending)) (hdeclared : name ∈ L.names) :
    ∀ latest ∈ path.head?, L.Inherits latest name := by
  intro latest hlatest
  exact inherits_iff.mpr ⟨h.ahead latest hlatest name List.mem_cons_self, hdeclared⟩

/-- Visiting a declared name that is not on the way lengthens the way. -/
theorem Walked.visit (h : Walked L path (name :: pending)) (hnew : name ∉ path)
    {d : Java.Descriptor} (hget : L.get? name = some d) :
    Walked L (name :: path) d.supertypes := by
  obtain ⟨hd, rfl⟩ := get?_eq_some_iff.mp hget
  have hdeclared : d.name ∈ L.names := List.mem_map_of_mem hd
  refine ⟨h.walk.cons (h.next hdeclared), List.nodup_cons.mpr ⟨hnew, h.distinct⟩,
    List.forall_mem_cons.mpr ⟨hdeclared, h.declared⟩, ?_⟩
  intro latest hlatest s hs
  obtain rfl : d.name = latest := by simpa using hlatest
  show s ∈ L.supertypesOf d.name
  rwa [supertypesOf_name hd]

/-- A pending name that is on the way closes it. -/
theorem Walked.closedWay (h : Walked L path (name :: pending)) (hmem : name ∈ path) :
    ClosedWay L path.reverse name where
  walk := by
    have hwalk : (name :: path).IsChain fun later earlier => L.Inherits earlier later :=
      h.walk.cons (h.next (h.declared name hmem))
    rw [← List.reverse_cons, List.isChain_reverse]
    exact hwalk
  distinct := List.nodup_reverse.mpr h.distinct
  closes := List.mem_reverse.mpr hmem

/-- **A search that stops shows a way that closes.** What it took for finished does not matter. -/
theorem closedWay_of_searchCycle {cycle : List String}
    (h : searchCycle L path pending finished = .error cycle) (hpath : Walked L path pending) :
    ∃ way last, cycle = way ++ [last] ∧ ClosedWay L way last := by
  fun_induction searchCycle L path pending finished with
  | case1 path finished => cases h
  | case2 path finished name rest hdone ih => exact ih h hpath.rest
  | case3 path finished name rest hnew hmem =>
    cases h
    exact ⟨path.reverse, name, List.reverse_cons, hpath.closedWay hmem⟩
  | case4 path finished name rest hnew hmem hget ih => exact ih h hpath.rest
  | case5 path finished name rest hnew hmem d hget found hsub ih =>
    cases h
    exact ih hsub (hpath.visit hmem hget)
  | case6 path finished name rest hnew hmem d hget below hsub ihsub ih => exact ih h hpath.rest

/-! ## The verdict -/

theorem not_cyclic_of_validate (h : L.validate = .ok ()) : ¬ L.Cyclic := by
  rintro ⟨name, hcycle⟩
  have hle : L.Inherits ≤ L.Extends := fun a b hab => (inherits_iff.mp hab).1
  exact not_extends_cycle h name (Relation.TransGen.mono hle name name hcycle)

/-- A refusal for a cycle shows a way into it. -/
theorem closedWay_of_validate {path : String}
    (h : L.validate = .error (.circularReference path)) :
    ∃ way last, path = " -> ".intercalate (way ++ [last]) ∧ ClosedWay L way last := by
  rcases validate_cases L with
    ⟨d, -, defect, -, hinvalid⟩ | ⟨-, ⟨cycle, hsearch, hcircular⟩ | ⟨-, hok⟩⟩
  · rw [hinvalid] at h
    cases h
  · rw [hcircular] at h
    cases h
    obtain ⟨way, last, rfl, hway⟩ := closedWay_of_searchCycle hsearch (Walked.start L.names)
    exact ⟨way, last, rfl, hway⟩
  · rw [hok] at h
    cases h

/-- **Cycles of supertypes are found exactly.** A library whose types are each legal by themselves is
refused for a cycle if its graph has one and is valid if it has none; and whenever a library is
refused for a cycle, the refusal shows a way into one. -/
theorem validate_cycles :
    ((∀ d ∈ L.types, checkType d = .ok ()) →
      ((∃ path, L.validate = .error (.circularReference path)) ↔ L.Cyclic) ∧
      (L.validate = .ok () ↔ ¬ L.Cyclic)) ∧
    ∀ path, L.validate = .error (.circularReference path) →
      ∃ way last, path = " -> ".intercalate (way ++ [last]) ∧ 2 ≤ (way ++ [last]).length ∧
        ClosedWay L way last := by
  constructor
  · intro htypes
    rcases validate_cases L with
      ⟨d, hd, defect, hdefect, -⟩ | ⟨-, ⟨cycle, -, hcircular⟩ | ⟨-, hok⟩⟩
    · rw [htypes d hd] at hdefect
      cases hdefect
    · obtain ⟨way, last, -, hway⟩ := closedWay_of_validate hcircular
      have hcyclic : L.Cyclic := hway.cyclic
      simp [hcircular, hcyclic]
    · have hacyclic : ¬ L.Cyclic := not_cyclic_of_validate hok
      simp [hok, hacyclic]
  · intro path hpath
    obtain ⟨way, last, hnames, hway⟩ := closedWay_of_validate hpath
    refine ⟨way, last, hnames, ?_, hway⟩
    have hlength : 0 < way.length := List.length_pos_of_mem hway.closes
    simp only [List.length_append, List.length_singleton]
    omega

example : (⟨[{ name := "a.Loop", supertypes := ["a.Loop"] }], by decide⟩ : Library).validate
    = .error (.circularReference "a.Loop -> a.Loop") := by decide +kernel

/-! ### A way into a cycle -/

/-- The first type leads into the cycle of the last two, and before that to a type without
supertypes. -/
def loopedChain : Library := ⟨[
  { name := "a.First", supertypes := ["a.Leaf", "a.Left", "java.lang.Object"] },
  { name := "a.Leaf" },
  { name := "a.Left", supertypes := ["a.Leaf", "a.Right"] },
  { name := "a.Right", supertypes := ["a.Left"] }], by decide⟩

theorem validate_cycles_loopedChain :
    (∀ d ∈ loopedChain.types, checkType d = .ok ()) ∧
    loopedChain.validate
      = .error (.circularReference "a.First -> a.Left -> a.Right -> a.Left") ∧
    ((∃ path, loopedChain.validate = .error (.circularReference path)) ↔ loopedChain.Cyclic) ∧
    (loopedChain.validate = .ok () ↔ ¬ loopedChain.Cyclic) ∧
    ∃ way last, "a.First -> a.Left -> a.Right -> a.Left" = " -> ".intercalate (way ++ [last]) ∧
      2 ≤ (way ++ [last]).length ∧ ClosedWay loopedChain way last := by
  have htypes : ∀ d ∈ loopedChain.types, checkType d = .ok () := by decide +kernel
  have hpath : loopedChain.validate
      = .error (.circularReference "a.First -> a.Left -> a.Right -> a.Left") := by decide +kernel
  obtain ⟨hverdict, hways⟩ := validate_cycles (L := loopedChain)
  obtain ⟨hcircular, hvalid⟩ := hverdict htypes
  exact ⟨htypes, hpath, hcircular, hvalid, hways _ hpath⟩

end Stubwright.Library

import Mathlib.Data.List.Nodup
import Mathlib.Data.List.TakeWhile
import Std.Data.HashMap.Lemmas
import Stubwright.Library.Catalog
import Stubwright.Proofs.Supertypes

/-!
# The sequence and the table of a catalog

    history ──run──▶ catalog (types, positions)
       └──accepted──▶ the types alone ──▲

A catalog says everything twice: the table has to lead from each name to the one position where a
type of that name stands, and from no other name to anywhere (`Aligned`). The empty catalog does, and
each request keeps it so, whether it is carried out, refused, or carried out in part; what a request
takes in before it is refused is said once, for a list of types (`addAll_cases`).

Main statement (`run_inStep`): after any history of requests the names are distinct, looking up a
name finds the one type that has it, and the types are those accepted, in that order.
-/

namespace Stubwright.Catalog

open Java

variable {c other : Catalog} {d : Descriptor} {name : String}

/-! ## Sequence and table -/

/-- The declared names, in order. -/
def names (c : Catalog) : List String := c.types.toList.map (·.name)

/-- The table has a name at a position exactly if the type at that position has the name. -/
def Aligned (c : Catalog) : Prop :=
  ∀ name i, c.positions[name]? = some i ↔ (c.types[i]?).map Descriptor.name = some name

theorem aligned_empty : empty.Aligned := by
  intro name i
  simp [empty]

/-- A type that is declared stands somewhere. -/
theorem mem_names_iff : name ∈ c.names ↔ ∃ i : Nat, (c.types[i]?).map Descriptor.name = some name := by
  unfold names
  rw [List.mem_iff_getElem?]
  simp only [List.getElem?_map, Array.getElem?_toList]

/-- No position of the table lies beyond the sequence. -/
theorem Aligned.lt_size (h : c.Aligned) {i : Nat} (hi : c.positions[name]? = some i) :
    i < c.types.size := by
  obtain ⟨d, hd, -⟩ := Option.map_eq_some_iff.mp ((h name i).mp hi)
  exact (Array.getElem?_eq_some_iff.mp hd).1

theorem Aligned.has_iff (h : c.Aligned) : c.has name = true ↔ name ∈ c.names := by
  rw [mem_names_iff, has, Std.HashMap.contains_eq_isSome_getElem?, Option.isSome_iff_exists]
  exact exists_congr fun i => h name i

theorem Aligned.has_eq_false_iff (h : c.Aligned) : c.has name = false ↔ name ∉ c.names := by
  rw [← h.has_iff, Bool.not_eq_true]

/-- A name has one position, so no two types share it. -/
theorem Aligned.nodup_names (h : c.Aligned) : c.names.Nodup := by
  refine List.nodup_iff_getElem?_ne_getElem?.mpr fun i j hij hj heq => ?_
  have hname : ∀ k : Nat, c.names[k]? = (c.types[k]?).map Descriptor.name := by
    intro k
    simp only [names, List.getElem?_map, Array.getElem?_toList]
  obtain ⟨name, hj⟩ : ∃ name, c.names[j]? = some name := ⟨_, List.getElem?_eq_getElem hj⟩
  have hat : c.positions[name]? = some i := (h name i).mpr (by rw [← hname, heq, hj])
  have hat' : c.positions[name]? = some j := (h name j).mpr (by rw [← hname, hj])
  rw [hat, Option.some.injEq] at hat'
  omega

/-- Looking up a name finds the type that has it. -/
theorem Aligned.get?_eq_some_iff (h : c.Aligned) :
    c.get? name = some d ↔ d ∈ c.types.toList ∧ d.name = name := by
  unfold get?
  constructor
  · intro hget
    obtain ⟨i, hi, hd⟩ := Option.bind_eq_some_iff.mp hget
    have hname := (h name i).mp hi
    rw [hd, Option.map_some, Option.some.injEq] at hname
    exact ⟨Array.mem_toList_iff.mpr (Array.mem_of_getElem? hd), hname⟩
  · rintro ⟨hd, rfl⟩
    obtain ⟨i, hi⟩ := List.mem_iff_getElem?.mp hd
    rw [Array.getElem?_toList] at hi
    have hat : c.positions[d.name]? = some i := (h d.name i).mpr (by rw [hi, Option.map_some])
    rw [hat, Option.bind_some, hi]

/-! ## Adding types -/

theorem add_taken (h : c.has d.name = true) :
    c.add d = (c, some (.duplicate "type" d.name)) := by
  rw [add, if_pos h]

theorem add_free (h : c.has d.name = false) :
    c.add d = (⟨c.types.push d, c.positions.insert d.name c.types.size⟩, none) := by
  rw [add, if_neg (Bool.eq_false_iff.mp h)]

/-- A type at the end of the sequence needs its own name in the table, and no other. -/
theorem Aligned.push (h : c.Aligned) (hd : c.has d.name = false) :
    Aligned ⟨c.types.push d, c.positions.insert d.name c.types.size⟩ := by
  intro name i
  show (c.positions.insert d.name c.types.size)[name]? = some i ↔
    ((c.types.push d)[i]?).map Descriptor.name = some name
  rw [Std.HashMap.getElem?_insert, Array.getElem?_push]
  by_cases hi : i = c.types.size
  · -- the new position: only the new name leads there
    subst hi
    rw [if_pos rfl, Option.map_some, Option.some.injEq]
    by_cases hname : d.name = name
    · simp [hname]
    · rw [if_neg (by simpa using hname)]
      refine iff_of_false (fun hat => ?_) hname
      exact absurd (h.lt_size hat) (Nat.lt_irrefl _)
  · -- an old position: the new name is not among the old ones
    rw [if_neg hi]
    by_cases hname : d.name = name
    · subst hname
      rw [if_pos (by simp), Option.some.injEq]
      refine iff_of_false (fun he => hi he.symm) fun hat => ?_
      exact h.has_eq_false_iff.mp hd (mem_names_iff.mpr ⟨i, hat⟩)
    · rw [if_neg (by simpa using hname)]
      exact h name i

theorem Aligned.add (h : c.Aligned) (d : Descriptor) : (c.add d).1.Aligned := by
  cases hd : c.has d.name with
  | true => rwa [add_taken hd]
  | false =>
    rw [add_free hd]
    exact h.push hd

/-- All that adding types can end in: those before some type have been taken in, and either that was
the last of them, or the name of the next is taken and it is refused. -/
theorem addAll_cases (h : c.Aligned) (ds : List Descriptor) :
    (c.addAll ds).1.Aligned ∧
      (((c.addAll ds).2 = none ∧ (c.addAll ds).1.types.toList = c.types.toList ++ ds) ∨
      ∃ before d after, ds = before ++ d :: after ∧ d.name ∈ (c.addAll ds).1.names ∧
        (c.addAll ds).2 = some (.duplicate "type" d.name) ∧
        (c.addAll ds).1.types.toList = c.types.toList ++ before) := by
  induction ds generalizing c with
  | nil => exact ⟨h, .inl ⟨rfl, (List.append_nil _).symm⟩⟩
  | cons d ds ih =>
    cases hd : c.has d.name with
    | true =>
      have hadd : c.addAll (d :: ds) = (c, some (.duplicate "type" d.name)) := by
        rw [addAll, add_taken hd]
      rw [hadd]
      exact ⟨h, .inr ⟨[], d, ds, rfl, h.has_iff.mp hd, rfl, (List.append_nil _).symm⟩⟩
    | false =>
      have hadd : c.addAll (d :: ds)
          = addAll ⟨c.types.push d, c.positions.insert d.name c.types.size⟩ ds := by
        rw [addAll, add_free hd]
      rw [hadd]
      obtain ⟨haligned, hrest⟩ := ih (h.push hd)
      refine ⟨haligned, ?_⟩
      rcases hrest with ⟨hnone, htypes⟩ | ⟨before, e, after, rfl, he, herror, htypes⟩
      · exact .inl ⟨hnone, by simpa using htypes⟩
      · exact .inr ⟨d :: before, e, after, rfl, he, herror, by simpa using htypes⟩

theorem names_of_types {c' : Catalog} {ds : List Descriptor}
    (h : c'.types.toList = c.types.toList ++ ds) : c'.names = c.names ++ ds.map (·.name) := by
  rw [names, names, h, List.map_append]

/-- **Types are all taken in exactly if no name comes twice**, in the catalog or among them. -/
theorem addAll_eq_none_iff (h : c.Aligned) (ds : List Descriptor) :
    (c.addAll ds).2 = none ↔ (c.names ++ ds.map (·.name)).Nodup := by
  obtain ⟨haligned, hcases⟩ := addAll_cases h ds
  rcases hcases with ⟨hnone, htypes⟩ | ⟨before, d, after, rfl, hd, herror, htypes⟩
  · refine iff_of_true hnone ?_
    rw [← names_of_types htypes]
    exact haligned.nodup_names
  · refine iff_of_false (by simp [herror]) fun hnodup => ?_
    rw [names_of_types htypes] at hd
    rw [List.map_append, List.map_cons, ← List.append_assoc] at hnodup
    exact (List.nodup_append.mp hnodup).2.2 d.name hd d.name List.mem_cons_self rfl

/-! ## The library of a catalog -/

/-- The library of a catalog has its types. -/
theorem Aligned.types_library (h : c.Aligned) : c.library.types = c.types.toList := by
  have hadd : ∀ (ds : List Descriptor) (L : Library), (L.names ++ ds.map (·.name)).Nodup →
      (L.addAll ds).1.types = L.types ++ ds := by
    intro ds
    induction ds with
    | nil => exact fun L _ => (List.append_nil _).symm
    | cons d ds ih =>
      intro L hnodup
      have hfree : ¬ L.declares d.name = true := fun hd =>
        (List.nodup_append.mp hnodup).2.2 d.name (Library.declares_iff.mp hd) d.name
          List.mem_cons_self rfl
      rw [Library.addAll, Library.add, dif_neg hfree]
      dsimp only
      rw [ih]
      · simp
      · simpa [Library.names] using hnodup
  have hnames : (Library.empty.names ++ c.types.toList.map (·.name)).Nodup := h.nodup_names
  exact hadd c.types.toList Library.empty hnames

/-! ## Histories -/

/-- The catalogs that can be made. -/
inductive Built : Catalog → Prop
  | empty : Built empty
  | add {c : Catalog} (d : Descriptor) : Built c → Built (c.add d).1
  | merge {c other : Catalog} : Built c → Built other → Built (c.merge other).1

theorem Built.aligned (h : c.Built) : c.Aligned := by
  induction h with
  | empty => exact aligned_empty
  | add d _ ih => exact ih.add d
  | merge _ _ ih _ => exact (addAll_cases ih _).1

/-- A request to take types in: one, or those of another catalog. -/
inductive Request where
  | add (d : Descriptor)
  | merge (other : Catalog) (built : other.Built)

/-- The types that a request offers. -/
def Request.offered : Request → List Descriptor
  | add d => [d]
  | merge other _ => other.types.toList

/-- What a catalog is after a request, and the refusal, if it was refused. -/
def apply (c : Catalog) : Request → Catalog × Option DocumentError
  | .add d => c.add d
  | .merge other _ => c.merge other

/-- What a catalog is after a history of requests, whether they were refused or not. -/
def run (c : Catalog) (history : List Request) : Catalog :=
  history.foldl (fun c request => (c.apply request).1) c

/-- The types accepted in a history, after those accepted before: of what a request offers, those in
front of the first whose name is taken. -/
def accepted (before : List Descriptor) : List Request → List Descriptor
  | [] => before
  | request :: history =>
    accepted (before ++ request.offered.takeWhile fun d => d.name ∉ before.map (·.name)) history

theorem built_run (h : c.Built) (history : List Request) : (c.run history).Built := by
  induction history generalizing c with
  | nil => exact h
  | cons request history ih =>
    cases request with
    | add d => exact ih (.add d h)
    | merge other built => exact ih (.merge h built)

/-- The types of a catalog that another takes in: all, or those before the first whose name it
has. -/
theorem merge_cases (h : c.Aligned) (hother : other.Aligned) :
    ((c.merge other).2 = none ∧ (∀ d ∈ other.types.toList, c.has d.name = false) ∧
      (c.merge other).1.types.toList = c.types.toList ++ other.types.toList) ∨
    ∃ before d after, other.types.toList = before ++ d :: after ∧
      (∀ b ∈ before, c.has b.name = false) ∧ c.has d.name = true ∧
      (c.merge other).2 = some (.duplicate "type" d.name) ∧
      (c.merge other).1.types.toList = c.types.toList ++ before := by
  have hfree : ∀ ds, (c.merge other).1.types.toList = c.types.toList ++ ds →
      ∀ d ∈ ds, c.has d.name = false := by
    intro ds htypes d hd
    have hnodup : (c.merge other).1.names.Nodup := (addAll_cases h _).1.nodup_names
    rw [names_of_types htypes] at hnodup
    refine h.has_eq_false_iff.mpr fun hname => ?_
    exact (List.nodup_append.mp hnodup).2.2 _ hname _ (List.mem_map_of_mem hd) rfl
  rcases (addAll_cases h other.types.toList).2 with
    ⟨hnone, htypes⟩ | ⟨before, d, after, hsplit, hd, herror, htypes⟩
  · exact .inl ⟨hnone, hfree _ htypes, htypes⟩
  · refine .inr ⟨before, d, after, hsplit, hfree _ htypes, ?_, herror, htypes⟩
    -- the other catalog has the name once, so it is not taken by what came over before
    rw [names_of_types htypes, List.mem_append] at hd
    refine h.has_iff.mpr (hd.resolve_right fun hbefore => ?_)
    have hnodup : other.names.Nodup := hother.nodup_names
    rw [names, hsplit, List.map_append, List.map_cons] at hnodup
    exact (List.nodup_append.mp hnodup).2.2 _ hbefore _ List.mem_cons_self rfl

/-- **A request takes in what it offers up to the first name that is taken.** -/
theorem types_apply (h : c.Aligned) (request : Request) :
    (c.apply request).1.types.toList =
      c.types.toList ++ request.offered.takeWhile fun d => d.name ∉ c.names := by
  have hnot : ∀ d : Descriptor, decide (d.name ∉ c.names) = !c.has d.name := by
    intro d
    cases hd : c.has d.name with
    | true => simp [h.has_iff.mp hd]
    | false => simp [h.has_eq_false_iff.mp hd]
  simp only [hnot]
  cases request with
  | add d =>
    show (c.add d).1.types.toList = _ ++ [d].takeWhile _
    cases hd : c.has d.name with
    | true => simp [add_taken hd, hd]
    | false => simp [add_free hd, hd]
  | merge other built =>
    show (c.merge other).1.types.toList = _ ++ other.types.toList.takeWhile _
    rcases merge_cases h built.aligned with
      ⟨-, hfree, htypes⟩ | ⟨before, d, after, hsplit, hfree, hd, -, htypes⟩
    · rw [htypes, List.takeWhile_eq_self_iff.mpr fun d hd => by simp [hfree d hd]]
    · rw [htypes, hsplit, List.takeWhile_append_of_pos fun b hb => by simp [hfree b hb],
        List.takeWhile_cons_of_neg (by simp [hd]), List.append_nil]

theorem types_run (h : c.Built) (history : List Request) :
    (c.run history).types.toList = accepted c.types.toList history := by
  induction history generalizing c with
  | nil => rfl
  | cons request history ih =>
    have hbuilt : (c.apply request).1.Built := built_run h [request]
    show ((c.apply request).1.run history).types.toList = _
    rw [ih hbuilt, types_apply h.aligned, accepted]
    rfl

/-- What can be relied on when a catalog is looked into. -/
structure InStep (c : Catalog) : Prop where
  /-- No two types have the same name. -/
  distinct : (c.types.toList.map (·.name)).Nodup
  /-- A name is looked up to the one type that has it. -/
  found : ∀ name d, c.get? name = some d ↔ d ∈ c.types.toList ∧ d.name = name
  /-- A name that no type has is not found. -/
  missing : ∀ name, c.get? name = none ↔ ∀ d ∈ c.types.toList, d.name ≠ name
  has : ∀ name, c.has name = (c.get? name).isSome
  /-- The table leads nowhere beyond the sequence. -/
  inRange : ∀ (name : String) (i : Nat), c.positions[name]? = some i → i < c.types.size

theorem Aligned.inStep (h : c.Aligned) : c.InStep where
  distinct := h.nodup_names
  found _ _ := h.get?_eq_some_iff
  missing name := by
    rw [Option.eq_none_iff_forall_ne_some]
    constructor
    · intro hnone d hd hname
      exact hnone d (h.get?_eq_some_iff.mpr ⟨hd, hname⟩)
    · intro hnone d hget
      obtain ⟨hd, hname⟩ := h.get?_eq_some_iff.mp hget
      exact hnone d hd hname
  has name := by
    rw [Bool.eq_iff_iff, h.has_iff, Option.isSome_iff_exists, names, List.mem_map]
    exact exists_congr fun d => h.get?_eq_some_iff.symm
  inRange _ _ hi := h.lt_size hi

/-- What merging another catalog into this one does: its types are taken in, in order, up to the
first whose name is taken, which is refused. -/
structure Merges (c other : Catalog) : Prop where
  /-- It succeeds exactly if no name is taken. -/
  succeeds : (c.merge other).2 = none ↔ ∀ d ∈ other.types.toList, c.has d.name = false
  /-- Then all types of the other catalog come behind those that were there. -/
  appends : (c.merge other).2 = none →
    (c.merge other).1.types.toList = c.types.toList ++ other.types.toList
  /-- Otherwise the first type whose name is taken is refused, and exactly those before it came. -/
  refuses : (c.merge other).2 ≠ none →
    ∃ before d after, other.types.toList = before ++ d :: after ∧
      (∀ b ∈ before, c.has b.name = false) ∧ c.has d.name = true ∧
      (c.merge other).2 = some (.duplicate "type" d.name) ∧
      (c.merge other).1.types.toList = c.types.toList ++ before

theorem Aligned.merges (h : c.Aligned) (hother : other.Aligned) : Merges c other := by
  rcases merge_cases h hother with ⟨hnone, hfree, htypes⟩ | hrefused
  · exact ⟨iff_of_true hnone hfree, fun _ => htypes, fun herror => absurd hnone herror⟩
  · obtain ⟨before, d, after, hsplit, -, hd, herror, -⟩ := id hrefused
    refine ⟨iff_of_false (by simp [herror]) fun hfree => ?_, fun hnone => ?_, fun _ => hrefused⟩
    · rw [hfree d (hsplit ▸ List.mem_append_right _ List.mem_cons_self)] at hd
      cases hd
    · rw [herror] at hnone
      cases hnone

/-- **Sequence and table stay in step** over every history of requests, carried out or refused: the
catalog can be relied on, its types are those accepted, in order, a type that is refused leaves it
as it was, and another catalog is merged up to the first name that is taken. -/
theorem run_inStep (history : List Request) :
    (empty.run history).InStep ∧
    (empty.run history).types.toList = accepted [] history ∧
    (∀ d, ((empty.run history).add d).2 ≠ none →
      ((empty.run history).add d).1 = empty.run history) ∧
    ∀ other : Catalog, other.Built → Merges (empty.run history) other := by
  have hbuilt : (empty.run history).Built := built_run .empty history
  refine ⟨hbuilt.aligned.inStep, types_run .empty history, fun d hrefused => ?_, ?_⟩
  · cases hd : (empty.run history).has d.name with
    | true => rw [add_taken hd]
    | false => exact absurd (by rw [add_free hd]) hrefused
  · intro other hother
    exact hbuilt.aligned.merges hother.aligned

/-! ### A history with refusals -/

def named : Descriptor where
  name := "a.Named"

def shape : Descriptor where
  name := "a.Shape"
  supertypes := ["a.Named"]

/-- Another type of the name that `named` has. -/
def namedAgain : Descriptor where
  name := "a.Named"
  kind := .classType

def round : Descriptor where
  name := "a.Round"

/-- A catalog of three types, the second of which has a common name. -/
def threeTypes : Catalog := empty.run [.add shape, .add namedAgain, .add round]

/-- A type is added twice, three types are merged of which the second is refused, and the third is
added for itself. -/
def mixedHistory : List Request :=
  [.add named, .add named, .merge threeTypes (built_run .empty _), .add round]

theorem run_inStep_mixed :
    (empty.run mixedHistory).InStep ∧
      (empty.run mixedHistory).types.toList = [named, shape, round] := by
  obtain ⟨hinStep, htypes, -⟩ := run_inStep mixedHistory
  have hthree : threeTypes.types.toList = [shape, namedAgain, round] := types_run .empty _
  refine ⟨hinStep, htypes.trans ?_⟩
  simp only [mixedHistory, accepted, Request.offered, hthree]
  decide

end Stubwright.Catalog

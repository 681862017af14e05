import Mathlib.Logic.Function.Basic
import Stubwright.Proofs.DepthFirst
import Stubwright.Proofs.Slots

/-!
# Members in one pass

    target ──walk over supertypes, one declaration after the other──▶ Collection ──▶ members

The members of a stub come from slots, which are filled from all declarations once these have been
lined up. They can also be collected on the way, by a walk that keeps the names it has visited, an
entry for each key and the members so far, and that changes a member in its place when its key is met
again. Main statement (`collect_eq_slots`): both ways lead to the same members. So an entry always
points to the member of its own key (`Represents`).
-/

namespace Stubwright.Stub

open Java Library

variable {L : Library} {T : Descriptor} {k : MemberKey} {taken : List Slot} {d : Declaration}

/-! ## The walk -/

/-- Where a key was met first. -/
inductive KeyEntry where
  /-- As final, so that it cannot be overridden. -/
  | sealed
  /-- Kept as the member at this index, and last declared by the owner. -/
  | kept (index : Nat) (owner : String)
  deriving DecidableEq, Repr

/-- What a walk has collected. -/
structure Collection where
  visited : List String := []
  entries : MemberKey → Option KeyEntry := fun _ => none
  members : List Member := []

/-- Enters a key, or changes its entry. -/
def Collection.enter (c : Collection) (k : MemberKey) (entry : KeyEntry) : Collection :=
  { c with entries := Function.update c.entries k (some entry) }

/-- Takes in a declaration. Static ones are passed over. -/
def Collection.take (L : Library) (c : Collection) (owner : String) (m : Member) : Collection :=
  if m.isStatic then c
  else
    match c.entries m.key with
    | none =>
      if m.isFinal then c.enter m.key .sealed
      else { c.enter m.key (.kept c.members.length owner) with members := c.members ++ [m] }
    | some .sealed => c
    | some (.kept index keeper) =>
      if L.isSubtype keeper owner then c
      else
        match c.members[index]? with
        -- no index points behind the members, see `Represents`
        | none => c
        | some kept =>
          let shared := { kept with
            exceptions := kept.exceptions.filter m.exceptions.contains }
          if isMoreSpecific L m.returns kept.returns then
            { c.enter m.key (.kept index owner) with
              members := c.members.set index { shared with returns := m.returns } }
          else { c with members := c.members.set index shared }

/-- Visits a type and takes in its declarations. -/
def Collection.visit (L : Library) (c : Collection) (D : Descriptor) : Collection :=
  { D.members.foldl (fun c m => c.take L D.name m) c with visited := D.name :: c.visited }

/-- Follows pending entries in order, those of a type before the ones behind it. -/
def collectFrom (L : Library) (pending : List String) (c : Collection) : Collection :=
  match pending with
  | [] => c
  | s :: rest =>
    match _hd : L.get? s with
    | none => collectFrom L rest c
    | some D =>
      if _hv : s ∈ c.visited then collectFrom L rest c
      else collectFrom L (D.supertypes ++ rest) (c.visit L D)
termination_by Graph.weight L.supertypesOf L.names c.visited + pending.length
decreasing_by
  · simp
  · simp
  · obtain ⟨hD, rfl⟩ := get?_eq_some_iff.mp _hd
    have hlt : Graph.weight L.supertypesOf L.names (D.name :: c.visited) + D.supertypes.length
        < Graph.weight L.supertypesOf L.names c.visited := by
      rw [← supertypesOf_name hD]
      exact Graph.weight_cons_lt (List.mem_map_of_mem hD) _hv
    show Graph.weight L.supertypesOf L.names (D.name :: c.visited) + _ < _
    simp only [List.length_append, List.length_cons]
    omega

/-- The members that a walk from the target collects. -/
def collect (L : Library) (T : Descriptor) : List Member :=
  (collectFrom L T.supertypes (({} : Collection).visit L T)).members

/-! ## Entries for slots -/

/-- The members that the slots provide. -/
def provided (taken : List Slot) : List Member := taken.filterMap Slot.member?

/-- The entry for a key, if its member has this index. -/
def Standing.entry (index : Nat) : Standing → KeyEntry
  | .sealed => .sealed
  | .kept owner _ => .kept index owner

/-- The entries for slots whose first member has this index. -/
def entriesFrom (index : Nat) : List Slot → MemberKey → Option KeyEntry
  | [], _ => none
  | slot :: taken, k =>
    if slot.key = k then some (slot.standing.entry index)
    else entriesFrom (index + (provided [slot]).length) taken k

theorem provided_append (taken taken' : List Slot) :
    provided (taken ++ taken') = provided taken ++ provided taken' :=
  List.filterMap_append

theorem provided_cons (slot : Slot) (taken : List Slot) :
    provided (slot :: taken) = provided [slot] ++ provided taken :=
  provided_append [slot] taken

theorem entriesFrom_append (index : Nat) (taken taken' : List Slot) (k : MemberKey) :
    entriesFrom index (taken ++ taken') k
      = if k ∈ taken.map (·.key) then entriesFrom index taken k
        else entriesFrom (index + (provided taken).length) taken' k := by
  induction taken generalizing index with
  | nil => rfl
  | cons slot taken ih =>
    rw [List.cons_append, entriesFrom, entriesFrom, ih, provided_cons slot taken, List.length_append,
      Nat.add_assoc, List.map_cons]
    by_cases hk : slot.key = k
    · rw [if_pos hk, if_pos hk, if_pos (hk ▸ List.mem_cons_self)]
    · have hmem : k ∈ slot.key :: taken.map (·.key) ↔ k ∈ taken.map (·.key) := by
        rw [List.mem_cons, or_iff_right (Ne.symm hk)]
      simp only [if_neg hk, hmem]

theorem entriesFrom_eq_none {index : Nat} (h : k ∉ taken.map (·.key)) :
    entriesFrom index taken k = none := by
  have happend := entriesFrom_append index taken [] k
  rw [List.append_nil, if_neg h] at happend
  exact happend

variable {before after : List Slot} {standing : Standing}

/-- The entry for a key points behind the members of the slots in front. -/
theorem entriesFrom_slot (hbefore : k ∉ before.map (·.key)) :
    entriesFrom 0 (before ++ ⟨k, standing⟩ :: after) k
      = some (standing.entry (provided before).length) := by
  rw [entriesFrom_append, if_neg hbefore, Nat.zero_add, entriesFrom, if_pos rfl]

/-- Another key has the same entry if all slots but one are the same, and that one provides as many
members as before. -/
theorem entriesFrom_of_ne {k' : MemberKey} (hk : k' ≠ k) {standing' : Standing}
    (hlength : (provided [⟨k, standing⟩]).length = (provided [⟨k, standing'⟩]).length) :
    entriesFrom 0 (before ++ ⟨k, standing⟩ :: after) k'
      = entriesFrom 0 (before ++ ⟨k, standing'⟩ :: after) k' := by
  rw [entriesFrom_append, entriesFrom_append, entriesFrom, entriesFrom, if_neg (Ne.symm hk),
    if_neg (Ne.symm hk), hlength]

/-- A new key at the end leaves the entries of all others alone. -/
theorem entriesFrom_concat {k' : MemberKey} (hk : k' ≠ k) :
    entriesFrom 0 (before ++ [⟨k, standing⟩]) k' = entriesFrom 0 before k' := by
  rw [entriesFrom_append]
  split
  · rfl
  · next hnew =>
    rw [entriesFrom_eq_none hnew, entriesFrom, if_neg (Ne.symm hk)]
    rfl

/-! ## Slots of one key -/

/-- A key has no slot, or one with other slots before and after it. -/
theorem slot_cases (taken : List Slot) (k : MemberKey) :
    k ∉ taken.map (·.key) ∨
    ∃ before standing after, taken = before ++ ⟨k, standing⟩ :: after ∧
      k ∉ before.map (·.key) := by
  induction taken with
  | nil => exact .inl List.not_mem_nil
  | cons slot taken ih =>
    obtain ⟨key, standing⟩ := slot
    by_cases hk : k = key
    · subst hk
      exact .inr ⟨[], standing, taken, rfl, List.not_mem_nil⟩
    · rcases ih with hnew | ⟨before, found, after, rfl, hbefore⟩
      · exact .inl (by simpa [hk] using hnew)
      · exact .inr ⟨⟨key, standing⟩ :: before, found, after, rfl, by simpa [hk] using hbefore⟩

/-- Slots of other keys are passed over. -/
theorem absorb_append (h : d.member.key ∉ before.map (·.key)) (taken : List Slot) :
    absorb L (before ++ taken) d = before ++ absorb L taken d := by
  induction before with
  | nil => rfl
  | cons slot before ih =>
    rw [List.map_cons, List.mem_cons, not_or] at h
    rw [List.cons_append, absorb, if_neg (Ne.symm h.1), ih h.2, List.cons_append]

theorem absorb_new (h : d.member.key ∉ taken.map (·.key)) :
    absorb L taken d = taken ++ [Slot.first d] := by
  have happend := absorb_append (L := L) h []
  rwa [List.append_nil] at happend

theorem absorb_slot (h : d.member.key ∉ before.map (·.key)) :
    absorb L (before ++ ⟨d.member.key, standing⟩ :: after) d
      = before ++ ⟨d.member.key, standing.meet L d⟩ :: after := by
  rw [absorb_append h, absorb, if_pos rfl]

/-! ## Collected members are those of slots -/

/-- The collection has the members of the slots, and an entry shows where the member of its key is. -/
structure Represents (c : Collection) (taken : List Slot) : Prop where
  members : c.members = provided taken
  entries : c.entries = entriesFrom 0 taken

variable {c : Collection}

/-- A new key is entered, with a new member at the end unless it is final. -/
theorem Represents.take_new (h : Represents c taken) (hd : d.member.isStatic = false)
    (hnew : d.member.key ∉ taken.map (·.key)) :
    Represents (c.take L d.owner d.member) (taken ++ [Slot.first d]) := by
  have hentry : c.entries d.member.key = none := by rw [h.entries, entriesFrom_eq_none hnew]
  have hentries : Function.update c.entries d.member.key
        (some ((Slot.first d).standing.entry c.members.length))
      = entriesFrom 0 (taken ++ [Slot.first d]) := by
    funext k
    by_cases hk : k = d.member.key
    · rw [hk, Function.update_self, h.members]
      exact (entriesFrom_slot hnew).symm
    · rw [Function.update_of_ne hk, h.entries]
      exact (entriesFrom_concat hk).symm
  unfold Collection.take
  simp only [hd, hentry, Bool.false_eq_true, if_false]
  constructor
  · cases hfinal : d.member.isFinal <;>
      simp [Collection.enter, h.members, provided, Slot.first, Slot.member?, hfinal]
  · cases hfinal : d.member.isFinal <;>
      simpa [Collection.enter, Slot.first, Standing.entry, hfinal] using hentries

/-- A key that is kept again changes the member in its place, and its entry. -/
theorem Represents.replace {owner : String} {m : Member}
    (h : Represents c (before ++ ⟨k, .kept owner m⟩ :: after))
    (hbefore : k ∉ before.map (·.key)) (owner' : String) (m' : Member) :
    Represents { c.enter k (.kept (provided before).length owner') with
        members := c.members.set (provided before).length m' }
      (before ++ ⟨k, .kept owner' m'⟩ :: after) := by
  constructor
  · show c.members.set (provided before).length m' = _
    rw [h.members, provided_append, provided_append, List.set_append_right _ _ (Nat.le_refl _),
      Nat.sub_self]
    rfl
  · show Function.update c.entries k (some (.kept (provided before).length owner')) = _
    funext k'
    by_cases hk : k' = k
    · rw [hk, Function.update_self, entriesFrom_slot hbefore]
      rfl
    · rw [Function.update_of_ne hk, h.entries]
      exact entriesFrom_of_ne hk rfl

/-- **One declaration changes the collection as it changes the slots.** -/
theorem Represents.take (h : Represents c taken) (hd : d.member.isStatic = false) :
    Represents (c.take L d.owner d.member) (absorb L taken d) := by
  rcases slot_cases taken d.member.key with hnew | ⟨before, standing, after, rfl, hbefore⟩
  · rw [absorb_new hnew]
    exact h.take_new hd hnew
  · rw [absorb_slot hbefore]
    have hentry : c.entries d.member.key = some (standing.entry (provided before).length) := by
      rw [h.entries, entriesFrom_slot hbefore]
    unfold Collection.take
    cases standing with
    | sealed =>
      simp only [hd, hentry, Standing.entry, Bool.false_eq_true, if_false]
      exact h
    | kept keeper m =>
      have hmember : c.members[(provided before).length]? = some m := by
        rw [h.members, provided_append, List.getElem?_append_right (Nat.le_refl _), Nat.sub_self]
        rfl
      simp only [hd, hentry, Standing.entry, Bool.false_eq_true, if_false]
      rcases meet_cases (L := L) keeper m d with ⟨hsub, hmeet⟩ | ⟨hsub, hmore, hmeet⟩ |
        ⟨hsub, hmore, hmeet⟩
      · rw [hmeet, if_pos hsub]
        exact h
      · rw [hmeet, if_neg (by simp [hsub]), hmember]
        simp only [hmore, if_true]
        exact h.replace hbefore _ _
      · rw [hmeet, if_neg (by simp [hsub]), hmember]
        simp only [hmore, Bool.false_eq_true, if_false]
        -- the owner stays, so that the entry stays as it is
        have hsame : c.enter d.member.key (.kept (provided before).length keeper) = c := by
          rw [Collection.enter, Function.update_eq_self_iff.mpr hentry.symm]
        have hreplace := h.replace hbefore keeper
          { m with exceptions := m.exceptions.filter d.member.exceptions.contains }
        rwa [hsame] at hreplace

/-! ## The whole walk -/

/-- The static members of a type are passed over, the others are its declarations. -/
theorem members_visit (D : Descriptor) (c : Collection) :
    D.members.foldl (fun c m => c.take L D.name m) c
      = (declarations D).foldl (fun c d => c.take L d.owner d.member) c := by
  unfold declarations
  rw [List.foldl_map]
  induction D.members generalizing c with
  | nil => rfl
  | cons m ms ih =>
    rw [List.foldl_cons, ih]
    cases hstatic : m.isStatic with
    | true =>
      have hpass : c.take L D.name m = c := if_pos hstatic
      rw [hpass, List.filter_cons_of_neg (by simp [hstatic])]
    | false => rw [List.filter_cons_of_pos (by simp [hstatic]), List.foldl_cons]

theorem Represents.visit (h : Represents c taken) (D : Descriptor) :
    Represents (c.visit L D) ((declarations D).foldl (absorb L) taken) := by
  have hstatic : ∀ d ∈ declarations D, d.member.isStatic = false := fun d hd =>
    (mem_declarations_iff.mp hd).2.2.1
  have hfold : Represents ((declarations D).foldl (fun c d => c.take L d.owner d.member) c)
      ((declarations D).foldl (absorb L) taken) := by
    generalize declarations D = ds at hstatic
    induction ds generalizing c taken with
    | nil => exact h
    | cons d ds ih =>
      obtain ⟨hd, hds⟩ := List.forall_mem_cons.mp hstatic
      exact ih (h.take hd) hds
  rw [← members_visit] at hfold
  exact ⟨hfold.members, hfold.entries⟩

theorem Represents.visits (h : Represents c taken) (types : List Descriptor) :
    Represents (types.foldl (Collection.visit L) c)
      ((types.flatMap declarations).foldl (absorb L) taken) := by
  induction types generalizing c taken with
  | nil => exact h
  | cons D types ih =>
    rw [List.flatMap_cons, List.foldl_append, List.foldl_cons]
    exact ih (h.visit D)

/-! ### The equations of the loop -/

variable {s : String} {rest : List String} {D : Descriptor}

theorem collectFrom_undeclared (hget : L.get? s = none) :
    collectFrom L (s :: rest) c = collectFrom L rest c := by
  rw [collectFrom, hget]

theorem collectFrom_again (hvisited : s ∈ c.visited) :
    collectFrom L (s :: rest) c = collectFrom L rest c := by
  rw [collectFrom]
  split
  · rfl
  · rw [dif_pos hvisited]

theorem collectFrom_visit (hget : L.get? s = some D) (hnew : s ∉ c.visited) :
    collectFrom L (s :: rest) c = collectFrom L (D.supertypes ++ rest) (c.visit L D) := by
  rw [collectFrom, hget]
  exact dif_neg hnew

/-- Pending entries are followed one after the other. -/
theorem collectFrom_append (first later : List String) (c : Collection) :
    collectFrom L (first ++ later) c = collectFrom L later (collectFrom L first c) := by
  fun_induction collectFrom L first c with
  | case1 c => rfl
  | case2 c s rest hget ih =>
    rw [List.cons_append, collectFrom_undeclared hget]
    exact ih
  | case3 c s rest D hget hvisited ih =>
    rw [List.cons_append, collectFrom_again hvisited]
    exact ih
  | case4 c s rest D hget hnew ih =>
    rw [List.cons_append, collectFrom_visit hget hnew, ← List.append_assoc]
    exact ih

/-- Following entries visits the types that are met, in that order. -/
theorem collectFrom_eq {seen seen' pending : List String} {met : List Descriptor}
    (h : L.Follows seen pending met seen') {c : Collection} (hc : c.visited = seen) :
    collectFrom L pending c = met.foldl (Collection.visit L) c ∧
      (collectFrom L pending c).visited = seen' := by
  induction h generalizing c with
  | done =>
    rw [collectFrom]
    exact ⟨rfl, hc⟩
  | undeclared hget _ ih =>
    rw [collectFrom_undeclared hget]
    exact ih hc
  | again hseen _ ih =>
    rw [collectFrom_again (hc ▸ hseen)]
    exact ih hc
  | visit hget hnew _ _ ihbelow ihlater =>
    obtain ⟨-, rfl⟩ := get?_eq_some_iff.mp hget
    obtain ⟨hbelow, hmid⟩ := ihbelow (c := c.visit L _) (congrArg (_ :: ·) hc)
    obtain ⟨hlater, hend⟩ := ihlater hmid
    rw [collectFrom_visit hget (hc ▸ hnew), collectFrom_append]
    refine ⟨?_, hend⟩
    rw [hlater, hbelow, List.foldl_cons, List.foldl_append]

/-- **A walk collects the members of the slots.** -/
theorem collect_eq_slots (L : Library) (T : Descriptor) :
    collect L T = (slots L T).filterMap Slot.member? := by
  obtain ⟨met, seen, h, hlineage⟩ := exists_follows_lineage L T
  have hstart : Represents {} [] := ⟨rfl, rfl⟩
  have hwalk := (collectFrom_eq h (c := ({} : Collection).visit L T) rfl).1
  have hrepresents := (hstart.visits (L := L) (T :: met)).members
  rw [collect, hwalk, slots, offered, hlineage]
  exact hrepresents

/-- So it collects what a stub has to provide. -/
theorem members_eq_collect (hcheck : checkTarget T = .ok ()) :
    members L T = .ok (collect L T) := by
  rw [members, hcheck, collect_eq_slots]
  rfl

end Stubwright.Stub

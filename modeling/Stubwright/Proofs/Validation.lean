import Mathlib.Order.WellFounded
import Stubwright.Library.Validation
import Stubwright.Proofs.Supertypes

/-!
# What a valid library guarantees

`validate` runs its checks one after the other and stops at the first that fails (`validate_cases`).
That it gives no error therefore says that every check has passed:

* `nodup_keys_of_validate` — no type declares two members of one key.
* `acc_of_validate` — supertypes cannot be followed for ever, from whatever name. Hence being a
  subtype is a partial order (`isSubtype_antisymm`).
-/

namespace Stubwright.Library

open Java

variable {L : Library}

/-! ## Checks in sequence -/

theorem bind_eq_ok {ε α β : Type} {x : Except ε α} {f : α → Except ε β} {b : β} :
    x >>= f = .ok b ↔ ∃ a, x = .ok a ∧ f a = .ok b := by
  cases x <;> simp [bind, Except.bind]

/-- A check that passes lets what follows decide. -/
theorem seq_eq_ok {ε β : Type} {check : Except ε Unit} {f : Unit → Except ε β} {b : β} :
    check >>= f = .ok b ↔ check = .ok () ∧ f () = .ok b := by
  cases check <;> simp [bind, Except.bind]

/-- A check that is made of every item passes if it passes for each. -/
theorem forM_eq_ok_iff {ε α : Type} {check : α → Except ε Unit} {items : List α} :
    items.forM check = .ok () ↔ ∀ a ∈ items, check a = .ok () := by
  induction items with
  | nil => exact ⟨fun _ => List.forall_mem_nil _, fun _ => rfl⟩
  | cons a items ih =>
    show (check a >>= fun _ => items.forM check) = .ok () ↔ _
    rw [seq_eq_ok, List.forall_mem_cons, ← ih]

/-- The error of a check that is made of every item is that of one of them. -/
theorem exists_of_forM_eq_error {ε α : Type} {check : α → Except ε Unit} {items : List α} {e : ε}
    (h : items.forM check = .error e) : ∃ a ∈ items, check a = .error e := by
  induction items with
  | nil => cases h
  | cons a items ih =>
    have h : (check a >>= fun _ => items.forM check) = .error e := h
    cases hcheck : check a with
    | error e' =>
      rw [hcheck] at h
      cases h
      exact ⟨a, List.mem_cons_self, hcheck⟩
    | ok u =>
      rw [hcheck] at h
      obtain ⟨b, hb, herror⟩ := ih h
      exact ⟨b, List.mem_cons_of_mem a hb, herror⟩

/-- All that checking a library can end in: a type is illegal by itself, or the search for cycles
stops, or it ends. -/
theorem validate_cases (L : Library) :
    (∃ d ∈ L.types, ∃ defect, checkType d = .error defect ∧
      L.validate = .error (.invalid defect.message)) ∨
    ((∀ d ∈ L.types, checkType d = .ok ()) ∧
      ((∃ cycle, searchCycle L [] L.names [] = .error cycle ∧
        L.validate = .error (.circularReference (arrow.intercalate cycle))) ∨
      ((∃ done, searchCycle L [] L.names [] = .ok done) ∧ L.validate = .ok ()))) := by
  unfold validate checkSupertypeGraph
  cases htypes : L.types.forM checkType with
  | error defect =>
    obtain ⟨d, hd, hdefect⟩ := exists_of_forM_eq_error htypes
    exact .inl ⟨d, hd, defect, hdefect, rfl⟩
  | ok u =>
    refine .inr ⟨forM_eq_ok_iff.mp htypes, ?_⟩
    cases hsearch : searchCycle L [] L.names [] with
    | error cycle => exact .inl ⟨cycle, rfl, rfl⟩
    | ok done => exact .inr ⟨⟨done, rfl⟩, rfl⟩

theorem validate_eq_ok_iff :
    L.validate = .ok () ↔
      (∀ d ∈ L.types, checkType d = .ok ()) ∧ ∃ done, searchCycle L [] L.names [] = .ok done := by
  rw [← forM_eq_ok_iff]
  unfold validate checkSupertypeGraph
  cases L.types.forM checkType with
  | error defect => simp [throw, throwThe, MonadExceptOf.throw]
  | ok u => cases searchCycle L [] L.names [] <;> simp

/-- A check in front of others lets them decide unless it throws. -/
theorem ite_throw_eq_ok {ε α β : Type} {c : Prop} [Decidable c] {e : ε} {f : β → Except ε α}
    {x : Except ε α} {a : α} :
    (if c then (throw e : Except ε β) >>= f else x) = .ok a ↔ ¬ c ∧ x = .ok a := by
  by_cases hc : c
  · rw [if_pos hc]
    constructor
    · intro h
      cases h
    · rintro ⟨hn, -⟩
      exact absurd hc hn
  · rw [if_neg hc]
    exact ⟨fun h => ⟨hc, h⟩, fun h => h.2⟩

/-- A type definition passes if its name, its supertypes and its members do. -/
theorem checkType_eq_ok_iff {d : Descriptor} :
    checkType d = .ok () ↔ isBinaryName d.name = true ∧
      checkSupertypes d.name d.supertypes = .ok () ∧ checkMembers d.name [] d.members = .ok () := by
  unfold checkType
  dsimp only
  rw [ite_throw_eq_ok, seq_eq_ok, Bool.not_eq_true', Bool.not_eq_false]

/-! ## Keys -/

/-- No two items have the same label, and none has one that was seen before. -/
def Fresh {α β : Type} (label : α → β) (seen : List β) (items : List α) : Prop :=
  (items.map label).Nodup ∧ ∀ a ∈ items, label a ∉ seen

theorem fresh_nil_iff {α β : Type} {label : α → β} {items : List α} :
    Fresh label [] items ↔ (items.map label).Nodup := by
  simp [Fresh]

/-- Labels are compared one after the other, each with those seen so far. -/
theorem fresh_cons_iff {α β : Type} {label : α → β} {seen : List β} {a : α} {items : List α} :
    Fresh label seen (a :: items) ↔ label a ∉ seen ∧ Fresh label (label a :: seen) items := by
  unfold Fresh
  rw [List.map_cons, List.nodup_cons, List.forall_mem_cons]
  constructor
  · rintro ⟨⟨hnew, hnodup⟩, ha, hseen⟩
    refine ⟨ha, hnodup, fun b hb hmem => ?_⟩
    rcases List.mem_cons.mp hmem with hlabel | hmem
    · exact hnew (hlabel ▸ List.mem_map_of_mem hb)
    · exact hseen b hb hmem
  · rintro ⟨ha, hnodup, hseen⟩
    refine ⟨⟨?_, hnodup⟩, ha, fun b hb hmem => hseen b hb (List.mem_cons_of_mem _ hmem)⟩
    intro hnew
    obtain ⟨b, hb, hlabel⟩ := List.mem_map.mp hnew
    exact hseen b hb (hlabel ▸ List.mem_cons_self)

/-- Members pass if each does and their keys are distinct and new. -/
theorem checkMembers_eq_ok_iff {owner : String} {seen : List MemberKey} {members : List Member} :
    checkMembers owner seen members = .ok () ↔
      (∀ m ∈ members, checkMember owner m = .ok ()) ∧ Fresh Member.key seen members := by
  induction members generalizing seen with
  | nil => simp [checkMembers, Fresh]
  | cons m members ih =>
    rw [checkMembers, seq_eq_ok, List.forall_mem_cons, fresh_cons_iff]
    dsimp only
    simp only [ite_throw_eq_ok, ih, List.contains_iff_mem]
    constructor
    · rintro ⟨hm, hkey, hmembers, hfresh⟩
      exact ⟨⟨hm, hmembers⟩, hkey, hfresh⟩
    · rintro ⟨⟨hm, hmembers⟩, hkey, hfresh⟩
      exact ⟨hm, hkey, hmembers, hfresh⟩

theorem nodup_keys_of_checkType {d : Descriptor} (h : checkType d = .ok ()) :
    (d.members.map Member.key).Nodup := by
  obtain ⟨-, -, hmembers⟩ := checkType_eq_ok_iff.mp h
  exact fresh_nil_iff.mp (checkMembers_eq_ok_iff.mp hmembers).2

/-- **No type of a valid library declares a key twice.** -/
theorem nodup_keys_of_validate (hL : L.validate = .ok ()) {d : Descriptor} (hd : d ∈ L.types) :
    (d.members.map Member.key).Nodup :=
  nodup_keys_of_checkType ((validate_eq_ok_iff.mp hL).1 d hd)

/-! ## No way round -/

/-- The search for cycles is done with a name only after it is done with all supertypes of it, so
that from a name it has met these cannot be followed for ever. -/
theorem acc_of_searchCycle {path pending finished done : List String}
    (h : searchCycle L path pending finished = .ok done)
    (hfinished : ∀ n ∈ finished, Acc (fun b a => L.Extends a b) n) :
    (∀ n ∈ done, Acc (fun b a => L.Extends a b) n) ∧
      ∀ n ∈ pending, Acc (fun b a => L.Extends a b) n := by
  fun_induction searchCycle L path pending finished generalizing done with
  | case1 path finished =>
    rw [Except.ok.injEq] at h
    exact ⟨h ▸ hfinished, List.forall_mem_nil _⟩
  | case2 path finished name rest hdone ih =>
    obtain ⟨hd, hrest⟩ := ih h hfinished
    exact ⟨hd, List.forall_mem_cons.mpr ⟨hfinished name hdone, hrest⟩⟩
  | case3 path finished name rest hnew hpath => cases h
  | case4 path finished name rest hnew hpath hget ih =>
    obtain ⟨hd, hrest⟩ := ih h hfinished
    -- a name that is not declared has no supertypes at all
    have hname : Acc (fun b a => L.Extends a b) name := by
      refine ⟨name, fun s hs => ?_⟩
      have hs : s ∈ L.supertypesOf name := hs
      rw [supertypesOf, hget] at hs
      cases hs
    exact ⟨hd, List.forall_mem_cons.mpr ⟨hname, hrest⟩⟩
  | case5 path finished name rest hnew hpath d hget cycle hsub ih => cases h
  | case6 path finished name rest hnew hpath d hget below hsub ihsub ih =>
    obtain ⟨hbelow, hsupers⟩ := ihsub hsub hfinished
    have hname : Acc (fun b a => L.Extends a b) name := by
      refine ⟨name, fun s hs => hsupers s ?_⟩
      have hs : s ∈ L.supertypesOf name := hs
      rwa [supertypesOf, hget] at hs
    obtain ⟨hd, hrest⟩ := ih h (List.forall_mem_cons.mpr ⟨hname, hbelow⟩)
    exact ⟨hd, List.forall_mem_cons.mpr ⟨hname, hrest⟩⟩

/-- **In a valid library supertypes cannot be followed for ever.** -/
theorem acc_of_validate (hL : L.validate = .ok ()) (name : String) :
    Acc (fun b a => L.Extends a b) name := by
  by_cases hname : name ∈ L.names
  · obtain ⟨done, hsearch⟩ := (validate_eq_ok_iff.mp hL).2
    exact (acc_of_searchCycle hsearch (List.forall_mem_nil _)).2 name hname
  · refine ⟨name, fun s hs => ?_⟩
    have hs : s ∈ L.supertypesOf name := hs
    rw [supertypesOf_eq_nil hname] at hs
    cases hs

/-- No name of a valid library is led back to itself. -/
theorem not_extends_cycle (hL : L.validate = .ok ()) (name : String) :
    ¬ Relation.TransGen L.Extends name name := by
  intro h
  have hwf : WellFounded fun b a => L.Extends a b := ⟨acc_of_validate hL⟩
  have hback : Relation.TransGen (fun b a => L.Extends a b) name name :=
    Relation.transGen_swap.mpr h
  exact hwf.transGen.irrefl.irrefl name hback

/-- **In a valid library two types are subtypes of each other only if they are the same.** -/
theorem isSubtype_antisymm (hL : L.validate = .ok ()) {a b : String}
    (hab : L.isSubtype a b = true) (hba : L.isSubtype b a = true) : a = b := by
  rcases Relation.reflTransGen_iff_eq_or_transGen.mp (isSubtype_iff.mp hab) with h | h
  · exact h.symm
  · exact absurd (h.trans_left (isSubtype_iff.mp hba)) (not_extends_cycle hL a)

end Stubwright.Library

import Stubwright.Proofs.BinaryNames
import Stubwright.Proofs.TypeNames
import Stubwright.Proofs.Validation

/-!
# Legal type definitions

    Violation ──none──▶ Legal ◀──iff── checkType, checkMember, checkParameters, …

The checks of a type definition run through supertypes, members, parameters and exceptions, look at
each type by the name it would have in a library, and stop at the first defect. `Violation` lists
what can be wrong with a definition, without any order and without names that are read again. Main
statement (`validate_invalid_iff`): a library is refused as illegal exactly if one of its types has
such a violation.

This takes that the types of members are ones that can be read at all, as those of a document are. It
also takes the narrow sense of binary names, with no dollar sign inside an identifier: the wide sense
is refuted by a type whose name is an identifier (`dollar_name_refused`).
-/

namespace Stubwright

namespace Java

/-- The types a member is written with. -/
def Member.types (m : Member) : List JavaType :=
  m.returns :: (m.parameters.map (·.type) ++ m.exceptions)

theorem Member.forall_mem_types {m : Member} {p : JavaType → Prop} :
    (∀ t ∈ m.types, p t) ↔
      p m.returns ∧ (∀ q ∈ m.parameters, p q.type) ∧ ∀ e ∈ m.exceptions, p e := by
  simp only [types, List.forall_mem_cons, List.forall_mem_append, List.forall_mem_map]

theorem JavaType.innermost_ne_array (t e : JavaType) : t.innermost ≠ .array e := by
  induction t with
  | primitive p => simp [innermost]
  | reference name => simp [innermost]
  | array element ih => exact ih

end Java

namespace Library

open Java

variable {IsName : String → Prop} {d : Descriptor} {m : Member} {t : JavaType} {owner : String}

/-! ## What can be wrong -/

/-- A type that cannot be written in a signature: a class without a proper name, or an array of
`void`, whatever the number of dimensions. -/
inductive IllegalType (IsName : String → Prop) (t : JavaType) : Prop
  | name {n : String} : t.innermost = .reference n → ¬ IsName n → IllegalType IsName t
  | arrayOfVoid {e : JavaType} :
      t = .array e → t.innermost = .primitive .void → IllegalType IsName t

/-- What can be wrong with a type definition, given which texts are names of classes. -/
inductive Violation (IsName : String → Prop) (d : Descriptor) : Prop
  | typeName : ¬ IsName d.name → Violation IsName d
  /-- A supertype that is not read as a class, or as one without a proper name. -/
  | supertype {s : String} : s ∈ d.supertypes →
      (∀ n, JavaType.ofName? s = some (.reference n) → ¬ IsName n) → Violation IsName d
  | memberName {m : Member} : m ∈ d.members → isIdentifier m.name = false → Violation IsName d
  /-- Two members of one key. -/
  | sameKey {m n : Member} : [m, n].Sublist d.members → m.key = n.key → Violation IsName d
  /-- A return type, parameter type or exception type. -/
  | illegalType {m : Member} {t : JavaType} : m ∈ d.members → t ∈ m.types →
      IllegalType IsName t → Violation IsName d
  | voidParameter {m : Member} {p : Parameter} : m ∈ d.members → p ∈ m.parameters →
      p.type = .primitive .void → Violation IsName d
  | parameterName {m : Member} {p : Parameter} : m ∈ d.members → p ∈ m.parameters →
      isIdentifier p.name = false → Violation IsName d
  /-- Two parameters of one name. -/
  | sameParameter {m : Member} {p q : Parameter} : m ∈ d.members →
      [p, q].Sublist m.parameters → p.name = q.name → Violation IsName d
  /-- An exception that is not a class. -/
  | exceptionType {m : Member} {e : JavaType} : m ∈ d.members → e ∈ m.exceptions →
      (∀ n, e ≠ .reference n) → Violation IsName d

/-! ## What is right with the others -/

/-- A member that can be written. -/
structure LegalMember (m : Member) : Prop where
  name : isIdentifier m.name = true
  types : ∀ t ∈ m.types, ¬ IllegalType BinaryName t
  notVoid : ∀ p ∈ m.parameters, p.type.isVoid = false
  parameterNames : ∀ p ∈ m.parameters, isIdentifier p.name = true
  distinct : (m.parameters.map (·.name)).Nodup
  exceptions : ∀ e ∈ m.exceptions, ∃ n, e = .reference n

/-- A type definition without violations. -/
structure Legal (d : Descriptor) : Prop where
  name : BinaryName d.name
  supertypes : ∀ s ∈ d.supertypes, ∃ n, JavaType.ofName? s = some (.reference n) ∧ BinaryName n
  members : ∀ m ∈ d.members, LegalMember m
  distinct : (d.members.map Member.key).Nodup

/-- Labels repeat if two items have the same. -/
theorem nodup_map_iff_sublist {α β : Type} {label : α → β} {items : List α} :
    (items.map label).Nodup ↔ ∀ a b, [a, b].Sublist items → label a ≠ label b := by
  rw [List.Nodup, List.pairwise_map, List.pairwise_iff_forall_sublist]

theorem isVoid_iff : t.isVoid = true ↔ t = .primitive .void := by
  cases t with
  | primitive p => cases p <;> simp [JavaType.isVoid]
  | reference name => simp [JavaType.isVoid]
  | array element => simp [JavaType.isVoid]

/-- **A type definition is legal exactly if it has no violation.** -/
theorem legal_iff : Legal d ↔ ¬ Violation BinaryName d := by
  constructor
  · intro h hviolation
    cases hviolation with
    | typeName hname => exact hname h.name
    | supertype hs hread =>
      obtain ⟨n, hn, hname⟩ := h.supertypes _ hs
      exact hread n hn hname
    | memberName hm hname => simp [(h.members _ hm).name] at hname
    | sameKey hsub hkey => exact nodup_map_iff_sublist.mp h.distinct _ _ hsub hkey
    | illegalType hm ht hillegal => exact (h.members _ hm).types _ ht hillegal
    | voidParameter hm hp hvoid => simpa [hvoid, JavaType.isVoid] using (h.members _ hm).notVoid _ hp
    | parameterName hm hp hname => simp [(h.members _ hm).parameterNames _ hp] at hname
    | sameParameter hm hsub hname =>
      exact nodup_map_iff_sublist.mp (h.members _ hm).distinct _ _ hsub hname
    | exceptionType hm he hclass =>
      obtain ⟨n, hn⟩ := (h.members _ hm).exceptions _ he
      exact hclass n hn
  · intro h
    refine ⟨?_, ?_, ?_, ?_⟩
    · by_contra hname
      exact h (.typeName hname)
    · intro s hs
      by_contra hnone
      refine h (.supertype hs fun n hn hname => hnone ⟨n, hn, hname⟩)
    · intro m hm
      refine ⟨?_, ?_, ?_, ?_, ?_, ?_⟩
      · by_contra hname
        exact h (.memberName hm (Bool.eq_false_iff.mpr hname))
      · intro t ht hillegal
        exact h (.illegalType hm ht hillegal)
      · intro p hp
        by_contra hvoid
        exact h (.voidParameter hm hp (isVoid_iff.mp (by simpa using hvoid)))
      · intro p hp
        by_contra hname
        exact h (.parameterName hm hp (Bool.eq_false_iff.mpr hname))
      · refine nodup_map_iff_sublist.mpr fun p q hsub hname => ?_
        exact h (.sameParameter hm hsub hname)
      · intro e he
        by_contra hclass
        exact h (.exceptionType hm he fun n hn => hclass ⟨n, hn⟩)
    · refine nodup_map_iff_sublist.mpr fun m n hsub hkey => ?_
      exact h (.sameKey hsub hkey)

/-! ## What the checks find -/

/-- The library name of the type is read as a legal type. If the type cannot be read itself, that is
another one: the name of the class `int` is read as the primitive. -/
def Admitted (t : JavaType) : Prop :=
  ∃ u, JavaType.ofName? t.binaryName = some u ∧ ¬ IllegalType BinaryName u

/-- A member whose types are admitted. -/
structure AdmittedMember (m : Member) : Prop where
  name : isIdentifier m.name = true
  types : ∀ t ∈ m.types, Admitted t
  notVoid : ∀ p ∈ m.parameters, p.type.isVoid = false
  parameterNames : ∀ p ∈ m.parameters, isIdentifier p.name = true
  distinct : (m.parameters.map (·.name)).Nodup
  exceptions : ∀ e ∈ m.exceptions, ∃ n, e = .reference n

/-- A type is illegal if it has a class without a proper name inside, or if it is an array of
`void`. -/
theorem illegalType_iff :
    IllegalType BinaryName t ↔
      (∃ n, t.innermost = .reference n ∧ ¬ BinaryName n) ∨
        t.isArray = true ∧ t.innermost = .primitive .void := by
  constructor
  · rintro (⟨hn, hname⟩ | ⟨rfl, hvoid⟩)
    · exact .inl ⟨_, hn, hname⟩
    · exact .inr ⟨rfl, hvoid⟩
  · rintro (⟨n, hn, hname⟩ | ⟨harray, hvoid⟩)
    · exact .name hn hname
    · cases t with
      | array e => exact .arrayOfVoid rfl hvoid
      | primitive p => cases harray
      | reference n => cases harray

/-- A legal type is of a class with a proper name, if of a class at all. -/
theorem binaryName_of_legal (h : ¬ IllegalType BinaryName t) :
    ∀ n, t.innermost = .reference n → BinaryName n := by
  intro n hn
  by_contra hname
  exact h (.name hn hname)

/-- A name passes if it is read as a legal type. -/
theorem checkTypeName_eq_ok_iff {name context : String} :
    checkTypeName name context = .ok () ↔
      ∃ u, JavaType.ofName? name = some u ∧ ¬ IllegalType BinaryName u := by
  unfold checkTypeName
  cases hread : JavaType.ofName? name with
  | none => simp
  | some u =>
    simp only [Option.some.injEq, exists_eq_left', illegalType_iff]
    cases hinner : u.innermost with
    | reference n => simp [isBinaryName_iff]
    | primitive p => cases p <;> simp
    | array e => exact absurd hinner (JavaType.innermost_ne_array u e)

example : checkTypeName "void[][]" "a.T#m" = .error (.arrayOfVoid "void[][]" "a.T#m") := by
  decide +kernel

theorem checkParameters_eq_ok_iff {context : String} {seen : List String} {ps : List Parameter} :
    checkParameters context seen ps = .ok () ↔
      (∀ p ∈ ps, p.type.isVoid = false ∧ isIdentifier p.name = true ∧ Admitted p.type) ∧
        Fresh (·.name) seen ps := by
  induction ps generalizing seen with
  | nil => simp [checkParameters, Fresh]
  | cons p ps ih =>
    rw [checkParameters, List.forall_mem_cons, fresh_cons_iff]
    dsimp only
    simp only [ite_throw_eq_ok, seq_eq_ok, ih, checkTypeName_eq_ok_iff, List.contains_iff_mem]
    constructor
    · rintro ⟨hvoid, hname, hseen, htype, hrest, hfresh⟩
      exact ⟨⟨⟨by simpa using hvoid, by simpa using hname, htype⟩, hrest⟩, hseen, hfresh⟩
    · rintro ⟨⟨⟨hvoid, hname, htype⟩, hrest⟩, hseen, hfresh⟩
      exact ⟨by simp [hvoid], by simp [hname], hseen, htype, hrest, hfresh⟩

theorem checkExceptions_eq_ok_iff {context : String} {es : List JavaType} :
    checkExceptions context es = .ok () ↔ ∀ e ∈ es, (∃ n, e = .reference n) ∧ Admitted e := by
  induction es with
  | nil => simp [checkExceptions]
  | cons e es ih =>
    rw [List.forall_mem_cons]
    cases e with
    | reference n =>
      rw [checkExceptions, seq_eq_ok, ih, checkTypeName_eq_ok_iff]
      constructor
      · rintro ⟨hpass, hrest⟩
        exact ⟨⟨⟨n, rfl⟩, hpass⟩, hrest⟩
      · rintro ⟨⟨-, hadmitted⟩, hrest⟩
        exact ⟨hadmitted, hrest⟩
    | primitive p => simp [checkExceptions]
    | array e => simp [checkExceptions]

/-- **A member passes exactly if its types are admitted** and it is legal otherwise. -/
theorem checkMember_iff_admitted : checkMember owner m = .ok () ↔ AdmittedMember m := by
  unfold checkMember
  dsimp only
  simp only [ite_throw_eq_ok, seq_eq_ok, checkTypeName_eq_ok_iff, checkParameters_eq_ok_iff,
    checkExceptions_eq_ok_iff, fresh_nil_iff]
  constructor
  · rintro ⟨hname, hreturn, ⟨hps, hdistinct⟩, hes⟩
    exact ⟨by simpa using hname,
      Member.forall_mem_types.mpr ⟨hreturn, fun p hp => (hps p hp).2.2, fun e he => (hes e he).2⟩,
      fun p hp => (hps p hp).1, fun p hp => (hps p hp).2.1, hdistinct, fun e he => (hes e he).1⟩
  · intro hm
    obtain ⟨hreturn, hps, hes⟩ := Member.forall_mem_types.mp hm.types
    refine ⟨by simp [hm.name], hreturn, ⟨?_, hm.distinct⟩, ?_⟩
    · intro p hp
      exact ⟨hm.notVoid p hp, hm.parameterNames p hp, hps p hp⟩
    · intro e he
      exact ⟨hm.exceptions e he, hes e he⟩

/-- A type that can be read is admitted unless it is illegal. -/
theorem admitted_iff (h : Readable t) : Admitted t ↔ ¬ IllegalType BinaryName t := by
  rw [Admitted, JavaType.ofName?_binaryName h]
  simp only [Option.some.injEq, exists_eq_left']

theorem AdmittedMember.legal_iff (h : ∀ t ∈ m.types, Readable t) :
    AdmittedMember m ↔ LegalMember m := by
  have htypes : (∀ t ∈ m.types, Admitted t) ↔ ∀ t ∈ m.types, ¬ IllegalType BinaryName t :=
    forall₂_congr fun t ht => admitted_iff (h t ht)
  constructor
  · intro hm
    exact ⟨hm.name, htypes.mp hm.types, hm.notVoid, hm.parameterNames, hm.distinct, hm.exceptions⟩
  · intro hm
    exact ⟨hm.name, htypes.mpr hm.types, hm.notVoid, hm.parameterNames, hm.distinct, hm.exceptions⟩

theorem checkMember_eq_ok_iff (h : ∀ t ∈ m.types, Readable t) :
    checkMember owner m = .ok () ↔ LegalMember m := by
  rw [checkMember_iff_admitted, AdmittedMember.legal_iff h]

theorem checkSupertypes_eq_ok_iff {supertypes : List String} :
    checkSupertypes owner supertypes = .ok () ↔
      ∀ s ∈ supertypes, ∃ n, JavaType.ofName? s = some (.reference n) ∧ BinaryName n := by
  induction supertypes with
  | nil => simp [checkSupertypes]
  | cons s rest ih =>
    rw [checkSupertypes, List.forall_mem_cons, ← ih]
    split
    · next n hread =>
      rw [hread]
      cases hname : isBinaryName n <;> simp [← isBinaryName_iff, hname]
    · next hread => simpa using fun n hn => absurd hn (hread n)

/-- **A type definition passes exactly if it is legal.** -/
theorem checkType_eq_ok_iff_legal (h : ∀ m ∈ d.members, ∀ t ∈ m.types, Readable t) :
    checkType d = .ok () ↔ Legal d := by
  rw [checkType_eq_ok_iff, isBinaryName_iff, checkSupertypes_eq_ok_iff, checkMembers_eq_ok_iff,
    fresh_nil_iff]
  constructor
  · rintro ⟨hname, hsupertypes, hmembers, hdistinct⟩
    exact ⟨hname, hsupertypes, fun m hm => (checkMember_eq_ok_iff (h m hm)).mp (hmembers m hm),
      hdistinct⟩
  · intro hd
    exact ⟨hd.name, hd.supertypes,
      fun m hm => (checkMember_eq_ok_iff (h m hm)).mpr (hd.members m hm), hd.distinct⟩

/-! ## The verdict -/

/-- The types that members are written with can all be read. -/
def ReadableMembers (L : Library) : Prop :=
  ∀ d ∈ L.types, ∀ m ∈ d.members, ∀ t ∈ m.types, Readable t

/-- **A library is refused as illegal exactly if one of its type definitions has a violation.** -/
theorem validate_invalid_iff {L : Library} (h : ReadableMembers L) :
    (∃ reason, L.validate = .error (.invalid reason)) ↔ ∃ d ∈ L.types, Violation BinaryName d := by
  have hcheck : ∀ d ∈ L.types, (checkType d = .ok () ↔ ¬ Violation BinaryName d) := by
    intro d hd
    rw [checkType_eq_ok_iff_legal (h d hd), legal_iff]
  rcases validate_cases L with ⟨d, hd, defect, hdefect, hinvalid⟩ | ⟨htypes, hrest⟩
  · -- the type whose check fails is one that has a violation
    refine iff_of_true ⟨_, hinvalid⟩ ⟨d, hd, ?_⟩
    by_contra hlegal
    rw [(hcheck d hd).mpr hlegal] at hdefect
    cases hdefect
  · refine iff_of_false ?_ ?_
    · rintro ⟨reason, hinvalid⟩
      rcases hrest with ⟨cycle, -, hcircular⟩ | ⟨-, hok⟩
      · rw [hcircular] at hinvalid
        cases hinvalid
      · rw [hok] at hinvalid
        cases hinvalid
    · rintro ⟨d, hd, hviolation⟩
      exact (hcheck d hd).mp (htypes d hd) hviolation

/-! ### An array of nothing, and a name that is an identifier -/

/-- The second type returns arrays of `void`; all else is legal. -/
def voidGrid : Library := ⟨[
  { name := "a.Shape$Part", supertypes := [" java.lang.Runnable "] },
  { name := "a.Grid", members := [
    { name := "part", returns := .array (.reference "a.Shape$Part"),
      parameters := [⟨"row", .primitive .int⟩], exceptions := [.reference "java.io.IOException"] },
    { name := "cells", returns := .array (.array (.primitive .void)) }] }], by decide⟩

theorem validate_invalid_iff_voidGrid :
    ReadableMembers voidGrid ∧ ((∃ reason, voidGrid.validate = .error (.invalid reason)) ↔
      ∃ d ∈ voidGrid.types, Violation BinaryName d) := by
  have hread : ∀ d ∈ voidGrid.types, ∀ m ∈ d.members, ∀ t ∈ m.types,
      JavaType.ofName? t.binaryName = some t := by decide +kernel
  have h : ReadableMembers voidGrid := fun d hd m hm t ht => ⟨t.binaryName, hread d hd m hm t ht⟩
  exact ⟨h, validate_invalid_iff h⟩

/-- The class name is an identifier and holds a dollar sign. -/
def dollarNamed : Library := ⟨[{ name := "a.$Proxy0" }], by decide⟩

theorem not_violation_dollarNamed : ∀ d ∈ dollarNamed.types, ¬ Violation WideName d := by
  intro d hd hviolation
  obtain rfl : d = { name := "a.$Proxy0" } := by simpa [dollarNamed] using hd
  cases hviolation with
  | typeName hname =>
    apply hname
    have hpackage : IsWord ['a'] := by decide +kernel
    have hclass : IsWord ['$', 'P', 'r', 'o', 'x', 'y', '0'] := by decide +kernel
    exact .join hpackage rfl (.single hclass)
  | supertype hs _ => cases hs
  | sameKey hsub _ => cases hsub
  | memberName hm _ => cases hm
  | illegalType hm _ _ => cases hm
  | voidParameter hm _ _ => cases hm
  | parameterName hm _ _ => cases hm
  | sameParameter hm _ _ => cases hm
  | exceptionType hm _ _ => cases hm

/-- In the wide sense of names, a library without violations is refused. -/
theorem dollar_name_refused :
    ReadableMembers dollarNamed ∧
      ¬ ((∃ reason, dollarNamed.validate = .error (.invalid reason)) ↔
        ∃ d ∈ dollarNamed.types, Violation WideName d) := by
  have hread : ReadableMembers dollarNamed := by
    intro d hd m hm
    obtain rfl : d = { name := "a.$Proxy0" } := by simpa [dollarNamed] using hd
    cases hm
  have hinvalid : dollarNamed.validate
      = .error (.invalid "Invalid type name 'a.$Proxy0'") := by decide +kernel
  refine ⟨hread, fun hiff => ?_⟩
  obtain ⟨d, hd, hviolation⟩ := hiff.mp ⟨_, hinvalid⟩
  exact not_violation_dollarNamed d hd hviolation

end Library
end Stubwright

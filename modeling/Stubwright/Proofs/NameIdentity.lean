import Stubwright.Java.Member
import Stubwright.Proofs.TypeNames

/-!
# What library names tell apart

    spelling ──ofName?──▶ type ──binaryName──▶ library name
                            ▲                      │
                            └───────ofName?────────┘

A type has many spellings, and there are types that have none, such as the reference to a class
called `int`. Those that can be read are told by their innermost class alone: its name has to stand
for itself (`readable_iff`), which no keyword, no array and no padded name does. Among these types
the library name is one spelling more, so that different types have different names.

Main statement (`libraryNames_identify`): so the key of a member, which holds nothing but names, tells
the types of its parameters.
-/

namespace Stubwright.Java

open Text JavaType

variable {n : String} {t u : JavaType} {m m' : Member}

/-! ## Types that can be read -/

/-- A name that stands for the class of that name: it is not empty, there are no blanks around it and
no brackets behind it, and it is no keyword. -/
structure ClassName (n : String) : Prop where
  nonempty : n ≠ ""
  bare : trim n.toList = n.toList
  unbracketed : stripBrackets? n.toList = none
  unreserved : Primitive.ofKeyword? n = none

/-- **A name is read as the class of that name exactly if it stands for it.** -/
theorem ofName?_eq_reference_iff : ofName? n = some (.reference n) ↔ ClassName n := by
  constructor
  · intro h
    have hbare : trim n.toList = n.toList := by
      have htext := congrArg String.toList (eq_trimmed_of_reference h)
      rw [trimmed, String.toList_ofList] at htext
      exact htext.symm
    unfold ofName? at h
    cases hstrip : stripBrackets? (trim n.toList) with
    | some element =>
      rw [ofChars?_of_brackets hstrip, Option.map_eq_some_iff] at h
      obtain ⟨t, -, harray⟩ := h
      cases harray
    | none =>
      rw [ofChars?_of_plain hstrip, hbare, String.ofList_toList] at h
      split at h
      · cases h
      · next hne =>
        refine ⟨?_, hbare, hbare ▸ hstrip, ?_⟩
        · rintro rfl
          exact hne rfl
        · cases hkeyword : Primitive.ofKeyword? n with
          | none => rfl
          | some p =>
            rw [hkeyword] at h
            cases h
  · intro h
    have hne : ¬ n.toList.isEmpty = true := by
      rw [List.isEmpty_iff, String.toList_eq_nil_iff]
      exact h.nonempty
    unfold ofName?
    rw [ofChars?_of_plain (h.bare.symm ▸ h.unbracketed), h.bare, if_neg hne,
      String.ofList_toList, h.unreserved]

theorem readable_reference_iff : Readable (.reference n) ↔ ClassName n := by
  rw [← ofName?_eq_reference_iff]
  constructor
  · exact ofName?_binaryName
  · intro h
    exact ⟨n, h⟩

theorem readable_array_iff : Readable (.array t) ↔ Readable t := by
  constructor
  · rintro ⟨name, hname⟩
    unfold ofName? at hname
    cases hstrip : stripBrackets? (trim name.toList) with
    | some element =>
      rw [ofChars?_of_brackets hstrip, Option.map_eq_some_iff] at hname
      obtain ⟨t', ht', harray⟩ := hname
      cases harray
      refine ⟨String.ofList element, ?_⟩
      rw [ofName?, String.toList_ofList, ht']
    | none =>
      rw [ofChars?_of_plain hstrip] at hname
      split at hname
      · cases hname
      · split at hname <;> cases hname
  · rintro ⟨name, hname⟩
    refine ⟨name ++ "[]", ?_⟩
    rw [ofName?, String.toList_append]
    show ofChars? (name.toList ++ ['[', ']']) = some (.array t)
    rw [ofChars?_brackets, ← ofName?, hname, Option.map_some]

/-- **A type can be read exactly if the name of its innermost class stands for that class.** -/
theorem readable_iff : Readable t ↔ ∀ n, t.innermost = .reference n → ClassName n := by
  induction t with
  | primitive p => exact iff_of_true (readable_primitive p) fun n hn => by cases hn
  | reference name =>
    rw [readable_reference_iff]
    constructor
    · intro h n hn
      cases hn
      exact h
    · intro h
      exact h name rfl
  | array element ih => exact readable_array_iff.trans ih

/-! ## Names and keys -/

/-- **Types that can be read have different library names.** -/
theorem binaryName_inj (ht : Readable t) (hu : Readable u) (h : t.binaryName = u.binaryName) :
    t = u := by
  have hread : ofName? t.binaryName = some u := h ▸ ofName?_binaryName hu
  exact Option.some.inj ((ofName?_binaryName ht).symm.trans hread)

/-- The types of the parameters, in order. -/
def Member.parameterTypes (m : Member) : List JavaType := m.parameters.map (·.type)

theorem Member.key_eq (m : Member) :
    m.key = ⟨m.name, m.parameterTypes.map binaryName⟩ := by
  rw [key, parameterTypes, List.map_map]
  rfl

/-- The library names of types that can be read are read back, one by one. -/
theorem map_ofName?_binaryName {types : List JavaType} (h : ∀ t ∈ types, Readable t) :
    (types.map binaryName).map ofName? = types.map some := by
  rw [List.map_map]
  exact List.map_congr_left fun t ht => ofName?_binaryName (h t ht)

/-- **The key of a member tells the types of its parameters.** -/
theorem Member.key_eq_key_iff (hm : ∀ t ∈ m.parameterTypes, Readable t)
    (hm' : ∀ t ∈ m'.parameterTypes, Readable t) :
    m.key = m'.key ↔ m.name = m'.name ∧ m.parameterTypes = m'.parameterTypes := by
  rw [key_eq, key_eq, MemberKey.mk.injEq]
  refine and_congr_right fun _ => ⟨fun hnames => ?_, fun htypes => congrArg _ htypes⟩
  have hread : m.parameterTypes.map some = m'.parameterTypes.map some := by
    rw [← map_ofName?_binaryName hm, hnames, map_ofName?_binaryName hm']
  exact List.map_injective_iff.mpr (fun _ _ h => Option.some.inj h) hread

/-- **Library names are read back and identify.** Whatever is read from some spelling is read again
from its library name; types that were read have different library names; and members whose parameter
types were read have the same key exactly if they agree in name and parameter types. -/
theorem libraryNames_identify :
    (∀ s t, ofName? s = some t → ofName? t.binaryName = some t) ∧
    (∀ t u, Readable t → Readable u → t.binaryName = u.binaryName → t = u) ∧
    ∀ m m' : Member, (∀ t ∈ m.parameterTypes, Readable t) →
      (∀ t ∈ m'.parameterTypes, Readable t) →
      (m.key = m'.key ↔ m.name = m'.name ∧ m.parameterTypes = m'.parameterTypes) := by
  refine ⟨fun s t hs => ?_, fun t u ht hu => ?_, fun m m' hm hm' => ?_⟩
  · exact ofName?_binaryName ⟨s, hs⟩
  · exact binaryName_inj ht hu
  · exact Member.key_eq_key_iff hm hm'

/-! ### Arrays of entries, spelled with blanks -/

/-- A two-dimensional array, with blanks at every level. -/
def spelledEntries : String := " java.util.Map$Entry [] \u3000[]\n"

/-- A member that takes such an array. -/
def putAll : Member where
  name := "put"
  returns := .primitive .void
  parameters := [⟨"entries", .array (.array (.reference "java.util.Map$Entry"))⟩]

/-- A member of the same name that takes an array of one dimension less. -/
def putRow : Member where
  name := "put"
  returns := .primitive .void
  parameters := [⟨"entries", .array (.reference "java.util.Map$Entry")⟩]

theorem libraryNames_identify_entries :
    ofName? spelledEntries = some (.array (.array (.reference "java.util.Map$Entry"))) ∧
      ofName? (array (.array (.reference "java.util.Map$Entry"))).binaryName
        = some (.array (.array (.reference "java.util.Map$Entry"))) ∧
      (putAll.key = putRow.key ↔
        putAll.name = putRow.name ∧ putAll.parameterTypes = putRow.parameterTypes) := by
  have hspelled : ofName? spelledEntries
      = some (.array (.array (.reference "java.util.Map$Entry"))) := by decide +kernel
  have hall : ∀ t ∈ putAll.parameterTypes, Readable t :=
    List.forall_mem_singleton.mpr ⟨spelledEntries, hspelled⟩
  have hrow : ∀ t ∈ putRow.parameterTypes, Readable t :=
    List.forall_mem_singleton.mpr ⟨"java.util.Map$Entry[]", by decide +kernel⟩
  obtain ⟨hprinted, -, hkeys⟩ := libraryNames_identify
  exact ⟨hspelled, hprinted _ _ hspelled, hkeys putAll putRow hall hrow⟩

end Stubwright.Java

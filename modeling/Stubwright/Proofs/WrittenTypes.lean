import Stubwright.Proofs.Provided
import Stubwright.Proofs.SignatureReading
import Stubwright.Proofs.SourcePaths
import Stubwright.Stub.Source

/-!
# Types as they are written

    type ──binaryName──▶ library name ──ofName?──▶ the type that is checked
      └──canonicalName──▶ text in the source

The checks look at the type that is read from the library name of a type, and the source shows the
type itself. The texts agree as long as the library name holds no blanks
(`canonicalName_of_plain`), but a text alone does not say whether it was meant as a class. Main
statement (`written_types_legal`): no stub of a valid library shows an array of `void`, and the other
types in it are written as they should be exactly if no parameter is of a class called `void`, every
exception is read as the class it is, and no library name holds a blank. All of this is so if the
types of the library can be read.
-/

namespace Stubwright

namespace Java

open Text Library

variable {s n : String} {cs : List Char} {t u : JavaType}

/-! ## Texts -/

/-- At least one identifier, and a dot between each two. -/
inductive DotSeparated : List Char → Prop
  | single {w : List Char} : IsWord w → DotSeparated w
  | join {w rest : List Char} : IsWord w → DotSeparated rest → DotSeparated (w ++ '.' :: rest)

/-- The text of a class. -/
def IsClassText (s : String) : Prop := DotSeparated s.toList

/-- A keyword or a class, followed by any number of `[]`. -/
inductive IsTypeText : String → Prop
  | keyword (p : Primitive) : IsTypeText p.keyword
  | className {s : String} : IsClassText s → IsTypeText s
  | array {s : String} : IsTypeText s → IsTypeText (s ++ "[]")

/-- `void` followed by at least one `[]`. -/
inductive IsVoidArrayText : String → Prop
  | one : IsVoidArrayText ("void" ++ "[]")
  | more {s : String} : IsVoidArrayText s → IsVoidArrayText (s ++ "[]")

/-- A text without blanks. -/
def Unblanked (s : String) : Prop := ∀ c ∈ s.toList, isBlank c = false

theorem unblanked_append {s' : String} : Unblanked (s ++ s') ↔ Unblanked s ∧ Unblanked s' := by
  rw [Unblanked, String.toList_append, List.forall_mem_append]
  rfl

/-- Characters of names are not blank. -/
theorem isBlank_of_isNameChar {c : Char} (h : isNameChar c = true) : isBlank c = false := by
  cases hblank : isBlank c with
  | false => rfl
  | true =>
    have hpart := isIdentifierPart_of_isBlank hblank
    simp only [isNameChar, hpart, Bool.false_or, Bool.or_eq_true, beq_iff_eq] at h
    rcases h with (rfl | rfl) | rfl
    all_goals exact absurd hblank (by decide)

theorem unblanked_of_plain (h : Plain s.toList) : Unblanked s :=
  fun c hc => isBlank_of_isNameChar (h.chars c hc)

theorem unblanked_brackets : Unblanked "[]" :=
  unblanked_of_plain ⟨by decide, List.all_eq_true.mp (by decide)⟩

/-- A class text consists of characters of identifiers and of dots. -/
theorem IsClassText.forall_mem (h : IsClassText s) :
    ∀ c ∈ s.toList, isIdentifierPart c = true ∨ c = '.' := by
  unfold IsClassText at h
  generalize s.toList = cs at h ⊢
  induction h with
  | single hw => exact fun c hc => .inl (isIdentifierPart_of_mem hw c hc)
  | @join w rest hw _ ih =>
    intro c hc
    rcases List.mem_append.mp hc with hc | hc
    · exact .inl (isIdentifierPart_of_mem hw c hc)
    · exact (List.mem_cons.mp hc).elim .inr (ih c)

theorem IsClassText.unblanked (h : IsClassText s) : Unblanked s := by
  intro c hc
  apply isBlank_of_isNameChar
  rcases h.forall_mem c hc with hpart | rfl
  · exact isNameChar_of_part hpart
  · decide

theorem IsTypeText.unblanked (h : IsTypeText s) : Unblanked s := by
  induction h with
  | keyword p => exact unblanked_of_plain (plain_keyword p)
  | className hs => exact hs.unblanked
  | array _ ih => exact unblanked_append.mpr ⟨ih, unblanked_brackets⟩

theorem IsVoidArrayText.unblanked (h : IsVoidArrayText s) : Unblanked s := by
  induction h with
  | one =>
    exact unblanked_append.mpr ⟨unblanked_of_plain (plain_keyword .void), unblanked_brackets⟩
  | more _ ih => exact unblanked_append.mpr ⟨ih, unblanked_brackets⟩

/-- Keywords are no class texts. -/
theorem not_isClassText_keyword (p : Primitive) : ¬ IsClassText p.keyword := by
  have hdot : '.' ∉ p.keyword.toList := by cases p <;> decide
  have hword : ¬ IsWord p.keyword.toList := by cases p <;> decide +kernel
  unfold IsClassText
  generalize p.keyword.toList = cs at hdot hword
  rintro (hw | _)
  · exact hword hw
  · exact hdot (List.mem_append_right _ List.mem_cons_self)

/-! ## The texts of names -/

/-- Dots come from dots and dollar signs, and all else stays as it is. -/
theorem toList_dotted (n : String) :
    (JavaType.dotted n).toList = n.toList.map fun c => if c == '$' then '.' else c :=
  String.toList_map

theorem unblanked_dotted : Unblanked (JavaType.dotted n) ↔ Unblanked n := by
  unfold Unblanked
  rw [toList_dotted, List.forall_mem_map]
  refine forall₂_congr fun c _ => ?_
  split
  · next hc =>
    obtain rfl := eq_of_beq hc
    exact iff_of_true (by decide) (by decide)
  · rfl

theorem map_dollar {cs : List Char} (h : '$' ∉ cs) :
    cs.map (fun c => if c == '$' then '.' else c) = cs := by
  refine (List.map_congr_left fun c hc => ?_).trans (List.map_id cs)
  have hne : c ≠ '$' := fun he => h (he ▸ hc)
  simp [hne]

/-- A text without dots is that of a name without dollar signs. -/
theorem eq_of_dotted (hdot : '.' ∉ s.toList) (h : JavaType.dotted n = s) : n = s := by
  have hdollar : '$' ∉ n.toList := by
    intro hc
    apply hdot
    rw [← h, toList_dotted]
    exact List.mem_map.mpr ⟨'$', hc, rfl⟩
  rw [← h]
  apply String.toList_inj.mp
  rw [toList_dotted, map_dollar hdollar]

theorem isClassText_dotted (h : BinaryName n) : IsClassText (JavaType.dotted n) := by
  unfold BinaryName at h
  unfold IsClassText
  rw [toList_dotted]
  generalize n.toList = cs at h
  induction h with
  | single hw =>
    rw [map_dollar hw.2]
    exact .single hw.1
  | @join w rest c hw hc _ ih =>
    have hsep : (if c == '$' then '.' else c) = '.' := by
      simp only [isNameSeparator, Bool.or_eq_true, beq_iff_eq] at hc
      rcases hc with rfl | rfl <;> rfl
    rw [List.map_append, List.map_cons, map_dollar hw.2, hsep]
    exact .join hw.1 ih

/-! ## The texts of types -/

theorem bracket_mem_array (e : JavaType) : ']' ∈ (JavaType.array e).canonicalName.toList := by
  rw [JavaType.canonicalName, String.toList_append]
  exact List.mem_append_right _ (by decide)

/-- Only `void` itself and a class of that name are written as `void`. -/
theorem canonicalName_eq_void_iff :
    t.canonicalName = "void" ↔ t = .primitive .void ∨ t = .reference "void" := by
  cases t with
  | primitive p => cases p <;> simp [JavaType.canonicalName, Primitive.keyword]
  | reference n =>
    have hname : JavaType.dotted n = "void" ↔ n = "void" := by
      refine ⟨eq_of_dotted (by decide), ?_⟩
      rintro rfl
      exact JavaType.dotted_keyword .void
    simp [JavaType.canonicalName, hname]
  | array e =>
    have hne : (JavaType.array e).canonicalName ≠ "void" := by
      intro h
      have hbracket : ']' ∈ "void".toList := h ▸ bracket_mem_array e
      revert hbracket
      decide
    simp [hne]

/-- **The text of a legal type** is a keyword or a class, with brackets behind it. -/
theorem isTypeText_of_legal (h : ¬ IllegalType BinaryName t) : IsTypeText t.canonicalName := by
  have hname : ∀ n, t.innermost = .reference n → BinaryName n := binaryName_of_legal h
  clear h
  induction t with
  | primitive p => exact .keyword p
  | reference n => exact .className (isClassText_dotted (hname n rfl))
  | array e ih => exact .array (ih hname)

theorem append_brackets_inj {s s' : String} : s ++ "[]" = s' ++ "[]" ↔ s = s' := by
  rw [← String.toList_inj, String.toList_append, String.toList_append, List.append_left_inj,
    String.toList_inj]

theorem IsVoidArrayText.bracket_mem (h : IsVoidArrayText s) : ']' ∈ s.toList := by
  cases h with
  | one => decide
  | more _ =>
    rw [String.toList_append]
    exact List.mem_append_right _ (by decide)

/-- What is written as an array of `void` is one, if it is of a class with a proper name
otherwise. -/
theorem void_of_isVoidArrayText (hname : ∀ n, t.innermost = .reference n → BinaryName n)
    (h : IsVoidArrayText t.canonicalName) :
    t.isArray = true ∧ t.innermost = .primitive .void := by
  induction t with
  | primitive p =>
    have hbracket : ']' ∉ p.keyword.toList := by cases p <;> decide
    exact absurd h.bracket_mem hbracket
  | reference n =>
    have hchars := (isClassText_dotted (hname n rfl)).forall_mem ']' h.bracket_mem
    exact absurd hchars (by decide)
  | array e ih =>
    refine ⟨rfl, ?_⟩
    generalize htext : (JavaType.array e).canonicalName = text at h
    cases h with
    | one =>
      have htext : e.canonicalName = "void" := append_brackets_inj.mp htext
      rcases canonicalName_eq_void_iff.mp htext with rfl | rfl
      · rfl
      · -- `void` is reserved, so that no class is called by it
        have hvoid : isBinaryName "void" = true := isBinaryName_iff.mpr (hname "void" rfl)
        revert hvoid
        decide +kernel
    | more h =>
      obtain rfl := append_brackets_inj.mp htext
      exact (ih hname h).2

/-- A legal type is not written as an array of `void`. -/
theorem not_isVoidArrayText_of_legal (h : ¬ IllegalType BinaryName t) :
    ¬ IsVoidArrayText t.canonicalName := by
  intro hvoid
  exact h (illegalType_iff.mpr (.inr (void_of_isVoidArrayText (binaryName_of_legal h) hvoid)))

/-! ## Checked types -/

/-- A name without blanks is the library name of what is read from it. -/
theorem binaryName_of_ofChars? (hplain : ∀ c ∈ cs, isBlank c = false)
    (h : JavaType.ofChars? cs = some u) : u.binaryName = String.ofList cs := by
  fun_induction JavaType.ofChars? cs generalizing u
  case case1 cs name element hstrip ih =>
    have hname : name = cs := trim_eq_self hplain
    have hcs : cs = element ++ ['[', ']'] := hname ▸ stripBrackets?_eq_some hstrip
    obtain ⟨e, he, rfl⟩ := Option.map_eq_some_iff.mp h
    rw [hcs, List.forall_mem_append] at hplain
    rw [JavaType.binaryName, ih hplain.1 he, hcs, String.ofList_append]
  case case2 => cases h
  case case3 cs name hstrip hne p hkeyword =>
    have hname : name = cs := trim_eq_self hplain
    cases h
    rw [JavaType.binaryName, Primitive.keyword_of_ofKeyword? hkeyword, hname]
  case case4 cs name hstrip hne hkeyword =>
    have hname : name = cs := trim_eq_self hplain
    cases h
    rw [JavaType.binaryName, hname]

theorem binaryName_of_ofName? (hplain : Unblanked s) (h : JavaType.ofName? s = some u) :
    u.binaryName = s := by
  rw [binaryName_of_ofChars? hplain h, String.ofList_toList]

/-- A type whose library name holds no blanks is written as the type that is read from it. -/
theorem canonicalName_of_plain (hplain : Unblanked t.binaryName)
    (h : JavaType.ofName? t.binaryName = some u) : t.canonicalName = u.canonicalName := by
  rw [JavaType.canonicalName_eq_dotted, JavaType.canonicalName_eq_dotted u,
    binaryName_of_ofName? hplain h]

end Java

namespace Library

open Java

variable {n : String} {t : JavaType}

/-- An admitted type is never written as an array of `void`. -/
theorem Admitted.not_isVoidArrayText (h : Admitted t) :
    ¬ IsVoidArrayText t.canonicalName := by
  obtain ⟨u, hread, hlegal⟩ := h
  intro hvoid
  have hplain : Unblanked t.binaryName := by
    rw [← unblanked_dotted, ← JavaType.canonicalName_eq_dotted]
    exact hvoid.unblanked
  rw [canonicalName_of_plain hplain hread] at hvoid
  exact not_isVoidArrayText_of_legal hlegal hvoid

/-- An admitted type is written as a type exactly if its library name holds no blanks. -/
theorem Admitted.isTypeText_iff (h : Admitted t) :
    IsTypeText t.canonicalName ↔ Unblanked t.binaryName := by
  obtain ⟨u, hread, hlegal⟩ := h
  constructor
  · intro htext
    rw [← unblanked_dotted, ← JavaType.canonicalName_eq_dotted]
    exact htext.unblanked
  · intro hplain
    rw [canonicalName_of_plain hplain hread]
    exact isTypeText_of_legal hlegal

/-- An admitted class is written as a class exactly if its name is read as that class. -/
theorem Admitted.isClassText_iff (h : Admitted (.reference n)) :
    IsClassText (JavaType.reference n).canonicalName ↔ Readable (.reference n) := by
  constructor
  · intro htext
    obtain ⟨u, hread, hlegal⟩ := h
    have hplain : Unblanked n := unblanked_dotted.mp htext.unblanked
    have htext' : IsClassText u.canonicalName :=
      canonicalName_of_plain (t := .reference n) hplain hread ▸ htext
    cases u with
    | reference n' =>
      obtain rfl : n' = n := binaryName_of_ofName? hplain hread
      exact ⟨n', hread⟩
    | primitive p => exact absurd htext' (not_isClassText_keyword p)
    | array e => exact absurd (htext'.forall_mem ']' (bracket_mem_array e)) (by decide)
  · intro hreadable
    exact isClassText_dotted (binaryName_of_legal ((admitted_iff hreadable).mp h) n rfl)

end Library

namespace Stub

open Java Library

variable {L : Library} {T : Descriptor} {m : Member}

/-! ## Members of a stub -/

/-- How the types of a member should look: no parameter as `void`, nothing as an array of `void`,
exceptions as classes, and all as keywords or classes with brackets behind them. -/
structure WellWritten (m : Member) : Prop where
  parameters : ∀ p ∈ m.parameters, p.type.canonicalName ≠ "void"
  arrays : ∀ t ∈ m.types, ¬ IsVoidArrayText t.canonicalName
  exceptions : ∀ e ∈ m.exceptions, IsClassText e.canonicalName
  types : ∀ t ∈ m.types, IsTypeText t.canonicalName

/-- How the types of a member should be named: no parameter by a class called `void`, exceptions by
names that are read as these classes, and none by a name that holds blanks. -/
structure WellNamed (m : Member) : Prop where
  parameters : ∀ p ∈ m.parameters, p.type ≠ .reference "void"
  exceptions : ∀ e ∈ m.exceptions, Readable e
  types : ∀ t ∈ m.types, Unblanked t.binaryName

/-- **A member that passes is well written exactly if it is well named.** -/
theorem wellWritten_iff (hm : AdmittedMember m) : WellWritten m ↔ WellNamed m := by
  obtain ⟨-, -, hexceptions⟩ := Member.forall_mem_types.mp hm.types
  have hparameters : (∀ p ∈ m.parameters, p.type.canonicalName ≠ "void") ↔
      ∀ p ∈ m.parameters, p.type ≠ .reference "void" := by
    refine forall₂_congr fun p hp => not_congr (canonicalName_eq_void_iff.trans ?_)
    have hvoid : p.type ≠ .primitive .void := fun h => by
      simpa [h, JavaType.isVoid] using hm.notVoid p hp
    exact or_iff_right hvoid
  have hclasses : (∀ e ∈ m.exceptions, IsClassText e.canonicalName) ↔
      ∀ e ∈ m.exceptions, Readable e := by
    refine forall₂_congr fun e he => ?_
    obtain ⟨n, rfl⟩ := hm.exceptions e he
    exact (hexceptions _ he).isClassText_iff
  have htypes : (∀ t ∈ m.types, IsTypeText t.canonicalName) ↔
      ∀ t ∈ m.types, Unblanked t.binaryName :=
    forall₂_congr fun t ht => (hm.types t ht).isTypeText_iff
  constructor
  · intro h
    exact ⟨hparameters.mp h.parameters, hclasses.mp h.exceptions, htypes.mp h.types⟩
  · intro h
    exact ⟨hparameters.mpr h.parameters, fun t ht => (hm.types t ht).not_isVoidArrayText,
      hclasses.mpr h.exceptions, htypes.mpr h.types⟩

/-- A member whose types can all be read is well named if it passes. -/
theorem wellNamed_of_readable (hm : AdmittedMember m) (hread : ∀ t ∈ m.types, Readable t) :
    WellNamed m := by
  obtain ⟨-, hparameters, hexceptions⟩ := Member.forall_mem_types.mp hread
  refine ⟨fun p hp hvoid => ?_, hexceptions, fun t ht => ?_⟩
  · -- the name of the class is read as the keyword
    have hself := JavaType.ofName?_binaryName (hparameters p hp)
    rw [hvoid] at hself
    revert hself
    decide +kernel
  · rw [← (hm.types t ht).isTypeText_iff]
    exact isTypeText_of_legal ((admitted_iff (hread t ht)).mp (hm.types t ht))

/-- **What types look like in a stub.** The stub of a declared type of a valid library names itself
and its target by class texts, it has no member that is written with an array of `void`, and its
members are well written exactly where they are well named. They are if the types of the library can
be read, as those of a document. -/
theorem written_types_legal (hL : L.validate = .ok ()) (hT : T ∈ L.types)
    (hcheck : checkTarget T = .ok ()) :
    ∃ ms, (∀ indent, render L indent T = .ok (source indent T ms)) ∧
      IsClassText (className T) ∧ IsClassText (targetName T) ∧
      (∀ m ∈ ms, (∀ t ∈ m.types, ¬ IsVoidArrayText t.canonicalName) ∧
        (WellWritten m ↔ WellNamed m)) ∧
      (ReadableMembers L → ∀ m ∈ ms, WellWritten m) := by
  obtain ⟨ms, hmembers, -, hms⟩ := members_spec (L := L) hcheck
  have hadmitted : ∀ m ∈ ms, AdmittedMember m := fun m hm => admittedMember_of_mem hT hms hm hL
  have hname : isBinaryName T.name = true :=
    (checkType_eq_ok_iff.mp ((validate_eq_ok_iff.mp hL).1 T hT)).1
  have htarget : IsClassText (targetName T) := by
    unfold targetName
    split
    · exact isClassText_dotted (isBinaryName_iff.mp hname)
    · exact .single (isWord_simpleName hname)
  have hclass : IsWord (className T).toList := by
    rw [IsWord, String.ofList_toList]
    exact isIdentifier_className hname
  refine ⟨ms, fun indent => by rw [render, hmembers]; rfl, .single hclass, htarget, ?_, ?_⟩
  · intro m hm
    exact ⟨fun t ht => ((hadmitted m hm).types t ht).not_isVoidArrayText,
      wellWritten_iff (hadmitted m hm)⟩
  · intro hread m hm
    exact (wellWritten_iff (hadmitted m hm)).mpr
      (wellNamed_of_readable (hadmitted m hm) (readable_of_mem hT hms hm hread))

/-! ### A parameter of the class `void` -/

def voidTaker : Descriptor where
  name := "a.T"
  members := [
    { name := "m"
      returns := .array (.reference "a.Shape$Part")
      parameters := [⟨"x", .reference "void"⟩] }]

def voidTaking : Library := ⟨[voidTaker], by decide⟩

theorem written_types_legal_voidTaking :
    voidTaking.validate = .ok () ∧ voidTaker ∈ voidTaking.types ∧ checkTarget voidTaker = .ok () ∧
      ∃ ms, (∀ indent, render voidTaking indent voidTaker = .ok (source indent voidTaker ms)) ∧
        IsClassText (className voidTaker) ∧ IsClassText (targetName voidTaker) ∧
        (∀ m ∈ ms, (∀ t ∈ m.types, ¬ IsVoidArrayText t.canonicalName) ∧
          (WellWritten m ↔ WellNamed m)) ∧
        (ReadableMembers voidTaking → ∀ m ∈ ms, WellWritten m) := by
  have hL : voidTaking.validate = .ok () := by decide +kernel
  have hT : voidTaker ∈ voidTaking.types := by decide
  have hcheck : checkTarget voidTaker = .ok () := by decide
  exact ⟨hL, hT, hcheck, written_types_legal hL hT hcheck⟩

/-- The library is valid, and the stub shows the parameter `void x`. -/
theorem void_parameter_is_rendered :
    voidTaking.validate = .ok () ∧ voidTaker ∈ voidTaking.types ∧ checkTarget voidTaker = .ok () ∧
      render voidTaking defaultIndent voidTaker
        = .ok (source defaultIndent voidTaker voidTaker.members) ∧
      voidTaker.members.map signature = ["public a.Shape.Part[] m(void x)"] := by
  refine ⟨?_, ?_, ?_, ?_, ?_⟩
  · decide +kernel
  · decide
  · decide
  · decide +kernel
  · decide +kernel

end Stub
end Stubwright

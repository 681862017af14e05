import Stubwright.Proofs.NameIdentity
import Stubwright.Proofs.SupertypeNames
import Stubwright.Stub.Target

/-!
# Resolving names

    spelling ──ofName?──▶ type ──resolve──▶ descriptor ──name──▶ library name
                                               ▲                     │
                                               └───────resolve───────┘

A library is asked for types by spellings, and what it answers hangs on nothing but the type that a
spelling is read as (`resolve_congr`). The name of the answer is the library name of that type
(`ofName?_of_resolve`), so that it leads to the same answer. In a valid library all declared names are
binary names; these are read as the classes they name, so that none of them is taken for a keyword,
an array or another name.

Main statement (`resolve_settles`): resolving is settled with one answer, finds every declared type of
a valid library, and takes arrays of any dimension for what they are.
-/

namespace Stubwright

namespace Text

/-! ## Blanks around a text -/

variable {cs bs : List Char}

theorem trim_blanks_append (h : ∀ c ∈ bs, isBlank c = true) : trim (bs ++ cs) = trim cs := by
  rw [trim, trimStart, List.dropWhile_append_of_pos h, ← trimStart, ← trim]

theorem trimEnd_append_blanks (h : ∀ c ∈ bs, isBlank c = true) :
    trimEnd (cs ++ bs) = trimEnd cs := by
  unfold trimEnd
  rw [List.reverse_append, List.dropWhile_append_of_pos (by simpa using h)]

theorem trim_append_blanks (h : ∀ c ∈ bs, isBlank c = true) : trim (cs ++ bs) = trim cs := by
  rw [trim, trim]
  unfold trimStart
  rw [List.dropWhile_append]
  split
  · next hempty =>
    -- there is nothing but blanks
    rw [List.isEmpty_iff.mp hempty, List.dropWhile_eq_nil_iff.mpr h]
  · exact trimEnd_append_blanks h

end Text

namespace Java

open JavaType

variable {n s : String} {t : JavaType}

/-! ## Binary names stand for themselves -/

/-- **A binary name is read as the class of that name.** -/
theorem BinaryName.className (h : BinaryName n) : ClassName n where
  nonempty := by
    rintro rfl
    exact h.ne_nil rfl
  bare := Text.trim_eq_self h.forall_not_blank
  unbracketed := by
    cases hstrip : stripBrackets? n.toList with
    | none => rfl
    | some element =>
      have hmem : ']' ∈ n.toList := by
        rw [stripBrackets?_eq_some hstrip]
        simp
      rcases h.forall_mem ']' hmem with hpart | hdot
      · exact absurd hpart (by decide)
      · exact absurd hdot (by decide)
  unreserved := by
    cases hkeyword : Primitive.ofKeyword? n with
    | none => rfl
    | some p =>
      have hname : isBinaryName p.keyword = true := by
        rw [Primitive.keyword_of_ofKeyword? hkeyword]
        exact isBinaryName_iff.mpr h
      have hreserved : isBinaryName p.keyword = false := by cases p <;> decide +kernel
      rw [hreserved] at hname
      cases hname

/-! ## Arrays of any dimension -/

/-- A name with so many pairs of brackets behind it. -/
def bracketed (s : String) : Nat → String
  | 0 => s
  | k + 1 => bracketed s k ++ "[]"

/-- The arrays of the type, of so many dimensions. -/
def JavaType.arrays (t : JavaType) : Nat → JavaType
  | 0 => t
  | k + 1 => .array (t.arrays k)

theorem ofName?_bracketed (h : ofName? s = some t) (k : Nat) :
    ofName? (bracketed s k) = some (t.arrays k) := by
  induction k with
  | zero => exact h
  | succ k ih =>
    rw [bracketed, ofName?, String.toList_append]
    show ofChars? ((bracketed s k).toList ++ ['[', ']']) = _
    rw [ofChars?_brackets, ← ofName?, ih, Option.map_some, arrays]

end Java

namespace Library

open Java JavaType Stub Text

variable {L : Library} {s s' : String} {t : JavaType} {d : Descriptor}

/-! ## What an answer hangs on -/

/-- Spellings of one type have the same answer. -/
theorem resolve_congr (h : ofName? s = some t) (h' : ofName? s' = some t) :
    L.resolve s = L.resolve s' := by
  rw [resolve, resolve, h, h']
  cases t <;> rfl

/-- The blanks around a name do not count. -/
theorem resolve_trim (h : trim s.toList = trim s'.toList) : L.resolve s = L.resolve s' := by
  have hread : ofName? s = ofName? s' := ofChars?_congr h
  have htrimmed : trimmed s = trimmed s' := congrArg String.ofList h
  rw [resolve, resolve, hread, htrimmed]

/-- **The answer has the library name of the type that was asked for.** -/
theorem ofName?_of_resolve (h : L.resolve s = .ok d) :
    ∃ t, ofName? s = some t ∧ d.name = t.binaryName := by
  unfold resolve at h
  split at h
  · next p hread =>
    cases h
    exact ⟨_, hread, rfl⟩
  · next element hread =>
    cases h
    exact ⟨_, hread, rfl⟩
  · next n hread =>
    split at h
    · next hget =>
      cases h
      exact ⟨_, hread, (get?_eq_some_iff.mp hget).2⟩
    · cases h
  · cases h

theorem resolve_name (h : L.resolve s = .ok d) : L.resolve d.name = .ok d := by
  obtain ⟨t, hread, hname⟩ := ofName?_of_resolve h
  rw [hname, resolve_congr (ofName?_binaryName ⟨s, hread⟩) hread, h]

/-- A declared type whose name stands for itself is found. -/
theorem resolve_of_className (hd : d ∈ L.types) (h : ClassName d.name) :
    L.resolve d.name = .ok d := by
  have hget : L.get? d.name = some d := get?_eq_some_iff.mpr ⟨hd, rfl⟩
  rw [resolve, ofName?_eq_reference_iff.mpr h]
  dsimp only
  rw [hget]

/-! ## Arrays -/

/-- Arrays are no targets. -/
theorem checkTarget_ofArray (element : JavaType) :
    checkTarget (Descriptor.ofArray element) =
      .error (.invalidTarget (Descriptor.ofArray element).name TargetDefect.array.message) := by
  have hname : isBlankName (Descriptor.ofArray element).name = false := by
    show (trim (element.binaryName ++ "[]").toList).isEmpty = false
    rw [String.toList_append]
    show (trim (element.binaryName.toList ++ ['[', ']'])).isEmpty = false
    rw [trim_brackets]
    simp
  rw [checkTarget, targetDefect?, hname]
  rfl

/-- **Resolving is settled and complete.** The name of an answer leads to the same answer, blanks
around a name never count, every type that a valid library declares is found by its name, and what
names an array is described as such and is no target. Whatever names a type names an array with
brackets behind it, as many as there are. -/
theorem resolve_settles (L : Library) :
    (∀ s d, L.resolve s = .ok d → L.resolve d.name = .ok d) ∧
    (∀ before s after : String, (∀ c ∈ before.toList, isBlank c = true) →
      (∀ c ∈ after.toList, isBlank c = true) →
      L.resolve (before ++ s ++ after) = L.resolve s) ∧
    (L.validate = .ok () → ∀ d ∈ L.types, L.resolve d.name = .ok d) ∧
    (∀ s t, ofName? s = some (.array t) → ∃ d, L.resolve s = .ok d ∧
      d.name = (JavaType.array t).binaryName ∧ d.kind = .arrayType ∧
      checkTarget d = .error (.invalidTarget d.name TargetDefect.array.message)) ∧
    ∀ s t k, ofName? s = some t → ofName? (bracketed s (k + 1)) = some (.array (t.arrays k)) := by
  refine ⟨fun s d hs => resolve_name hs, ?_, ?_, ?_, fun s t k hs => ofName?_bracketed hs (k + 1)⟩
  · intro before s after hbefore hafter
    refine resolve_trim ?_
    rw [String.toList_append, String.toList_append, trim_append_blanks hafter,
      trim_blanks_append hbefore]
  · intro hL d hd
    exact resolve_of_className hd (binaryName_of_validate hL hd).className
  · intro s t hs
    refine ⟨Descriptor.ofArray t, ?_, rfl, rfl, checkTarget_ofArray t⟩
    rw [resolve, hs]

/-! ### A nested type, with blanks and brackets -/

/-- A library with a nested interface. -/
def nested : Library := ⟨[{ name := "a.Shape" }, { name := "a.Shape$Part" }], by decide⟩

theorem resolve_settles_nested :
    nested.validate = .ok () ∧ nested.resolve " a.Shape$Part\n" = .ok { name := "a.Shape$Part" } ∧
      nested.resolve "a.Shape$Part" = .ok { name := "a.Shape$Part" } ∧
      ofName? " a.Shape$Part [] " = some (.array (.reference "a.Shape$Part")) ∧
      ∃ d, nested.resolve " a.Shape$Part [] [][]" = .ok d ∧ d.name = "a.Shape$Part[][][]" ∧
        d.kind = .arrayType ∧
        checkTarget d = .error (.invalidTarget d.name TargetDefect.array.message) := by
  have hvalid : nested.validate = .ok () := by decide +kernel
  have hread : ofName? " a.Shape$Part [] " = some (.array (.reference "a.Shape$Part")) := by
    decide +kernel
  obtain ⟨hagain, hblanks, hdeclared, harrays, hbracketed⟩ := resolve_settles nested
  have hpart := hdeclared hvalid { name := "a.Shape$Part" } (by decide)
  refine ⟨hvalid, ?_, hpart, hread, harrays _ _ (hbracketed _ _ 1 hread)⟩
  have hspace : ∀ c ∈ " ".toList, isBlank c = true := List.forall_mem_singleton.mpr (by decide)
  have hend : ∀ c ∈ "\n".toList, isBlank c = true := List.forall_mem_singleton.mpr (by decide)
  exact (hblanks " " "a.Shape$Part" "\n" hspace hend).trans hpart

end Library
end Stubwright

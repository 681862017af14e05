import Stubwright.Proofs.Legality

/-!
# The words of a source

    identifier, keyword, full name of a type ──▶ characters of names, and no others

Whatever a source names is written with the characters of identifiers, dots and brackets. The
characters that stand between words, blanks and ends of lines among them, are none of these. So a word
ends where the first such character is.
-/

namespace Stubwright.Java

open Library

variable {cs ds : List Char} {t : JavaType}

/-- A character that a name is written with. -/
def isNameChar (c : Char) : Bool := isIdentifierPart c || c == '.' || c == '[' || c == ']'

/-- A text of such characters that is not empty. -/
structure Plain (cs : List Char) : Prop where
  ne_nil : cs ≠ []
  chars : ∀ c ∈ cs, isNameChar c = true

theorem Plain.not_mem (h : Plain cs) {c : Char} (hc : isNameChar c = false) : c ∉ cs := by
  intro hmem
  rw [h.chars c hmem] at hc
  cases hc

/-- A word does not start with a blank. -/
theorem Plain.start (h : Plain cs) (more : List Char) :
    ∃ c rest, cs ++ more = c :: rest ∧ c ≠ ' ' := by
  have hblank : ' ' ∉ cs := h.not_mem (by decide)
  cases cs with
  | nil => exact absurd rfl h.ne_nil
  | cons c cs => exact ⟨c, cs ++ more, rfl, fun hc => hblank (hc ▸ List.mem_cons_self)⟩

theorem Plain.append (h : Plain cs) (hds : ∀ c ∈ ds, isNameChar c = true) : Plain (cs ++ ds) :=
  ⟨by simp [h.ne_nil], List.forall_mem_append.mpr ⟨h.chars, hds⟩⟩

theorem isNameChar_of_part {c : Char} (h : isIdentifierPart c = true) : isNameChar c = true := by
  rw [isNameChar, h]
  rfl

theorem plain_of_isWord (h : IsWord cs) : Plain cs :=
  ⟨h.ne_nil, fun c hc => isNameChar_of_part (isIdentifierPart_of_mem h c hc)⟩

theorem plain_of_isIdentifier {s : String} (h : isIdentifier s = true) : Plain s.toList :=
  plain_of_isWord (by rwa [IsWord, String.ofList_toList])

theorem plain_keyword (p : Primitive) : Plain p.keyword.toList := by
  have hne : p.keyword.toList ≠ [] := by cases p <;> decide
  have hchars : p.keyword.toList.all isNameChar = true := by cases p <;> decide
  exact ⟨hne, List.all_eq_true.mp hchars⟩

theorem isNameChar_of_binaryName {n : String} (h : BinaryName n) :
    ∀ c ∈ n.toList, isNameChar c = true := by
  intro c hc
  rcases h.forall_mem c hc with hpart | rfl
  · exact isNameChar_of_part hpart
  · decide

theorem plain_dotted {n : String} (h : BinaryName n) : Plain (JavaType.dotted n).toList := by
  rw [JavaType.dotted, String.toList_map]
  refine ⟨by simpa using h.ne_nil, List.forall_mem_map.mpr fun c hc => ?_⟩
  -- a dollar sign has become a dot, and all else is as it was
  split
  · decide
  · exact isNameChar_of_binaryName h c hc

theorem plain_canonicalName (h : ∀ n, t.innermost = .reference n → BinaryName n) :
    Plain t.canonicalName.toList := by
  induction t with
  | primitive p => exact plain_keyword p
  | reference n => exact plain_dotted (h n rfl)
  | array element ih =>
    rw [JavaType.canonicalName, String.toList_append]
    exact (ih h).append (List.all_eq_true.mp (by decide))

/-- **The full name of a legal type is a word.** -/
theorem plain_of_legal (h : ¬ IllegalType BinaryName t) : Plain t.canonicalName.toList :=
  plain_canonicalName (binaryName_of_legal h)

end Stubwright.Java

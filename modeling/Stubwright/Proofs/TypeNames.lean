import Mathlib.Data.List.DropRight
import Stubwright.Java.JavaType

/-!
# Type names are read back

    written name ──ofName?──▶ JavaType ──binaryName──▶ library name ──ofName?──▶ the same type

Reading forgets the blanks in a name, so that a type has many names. Its library name is one of
them: every type that can be read at all is read from it (`ofName?_binaryName`). This is not so for
the other types, such as the reference to a class called `int`.
-/

namespace Stubwright

namespace Text

/-! ## Trimming twice -/

theorem trimStart_append {cs ds : List Char} {c : Char} (hc : isBlank c = false) :
    trimStart (cs ++ c :: ds) = trimStart cs ++ c :: ds := by
  unfold trimStart
  rw [List.dropWhile_append]
  split
  · next hempty =>
    rw [List.isEmpty_iff.mp hempty, List.nil_append]
    exact List.dropWhile_cons_of_neg (by simp [hc])
  · rfl

theorem trimEnd_append {cs : List Char} {c : Char} (hc : isBlank c = false) :
    trimEnd (cs ++ [c]) = cs ++ [c] := by
  unfold trimEnd
  rw [List.reverse_concat, List.dropWhile_cons_of_neg (by simp [hc]), List.reverse_cons,
    List.reverse_reverse]

theorem trimStart_trimStart (cs : List Char) : trimStart (trimStart cs) = trimStart cs :=
  List.dropWhile_idempotent isBlank cs

theorem trim_trimStart (cs : List Char) : trim (trimStart cs) = trim cs := by
  rw [trim, trimStart_trimStart, trim]

/-- What is left of a text without leading blanks has none either. -/
theorem trimStart_trimEnd {cs : List Char} (h : trimStart cs = cs) :
    trimStart (trimEnd cs) = trimEnd cs := by
  have hprefix : trimEnd cs <+: cs := List.rdropWhile_prefix isBlank cs
  obtain ⟨rest, hrest⟩ := hprefix
  cases hcs : trimEnd cs with
  | nil => rfl
  | cons c ds =>
    rw [hcs] at hrest
    apply List.dropWhile_cons_of_neg
    intro hc
    rw [← hrest, trimStart, List.cons_append, List.dropWhile_cons_of_pos hc] at h
    have hlength := congrArg List.length h
    have hle := (List.dropWhile_suffix (l := ds ++ rest) isBlank).length_le
    rw [List.length_cons] at hlength
    omega

/-- Brackets behind a text end the trimming there. -/
theorem trim_brackets (cs : List Char) :
    trim (cs ++ ['[', ']']) = trimStart cs ++ ['[', ']'] := by
  have hend : ∀ ds : List Char, ds ++ ['[', ']'] = (ds ++ ['[']) ++ [']'] := by simp
  rw [trim, trimStart_append (by decide), hend, trimEnd_append (by decide)]

theorem trim_trim (cs : List Char) : trim (trim cs) = trim cs := by
  have hstart : trimStart (trim cs) = trim cs := trimStart_trimEnd (trimStart_trimStart cs)
  have hend : trimEnd (trimEnd (trimStart cs)) = trimEnd (trimStart cs) :=
    List.rdropWhile_idempotent isBlank _
  rw [trim, hstart, trim, hend]

/-! ## Nothing to trim -/

theorem trimStart_eq_self {cs : List Char} (h : ∀ c ∈ cs, isBlank c = false) :
    trimStart cs = cs := by
  cases cs with
  | nil => rfl
  | cons c cs =>
    apply List.dropWhile_cons_of_neg
    simp [h c List.mem_cons_self]

theorem trim_eq_self {cs : List Char} (h : ∀ c ∈ cs, isBlank c = false) : trim cs = cs := by
  have hend : trimStart cs.reverse = cs.reverse := trimStart_eq_self (by simpa using h)
  rw [trim, trimStart_eq_self h]
  show (trimStart cs.reverse).reverse = cs
  rw [hend, List.reverse_reverse]

end Text

namespace Java

open Text

/-- A type that some name names. -/
def Readable (t : JavaType) : Prop := ∃ name, JavaType.ofName? name = some t

theorem readable_primitive (p : Primitive) : Readable (.primitive p) :=
  ⟨p.keyword, by cases p <;> decide +kernel⟩

namespace JavaType

variable {cs ds : List Char} {t : JavaType}

/-! ## What a name is read by -/

theorem ofChars?_of_brackets {element : List Char} (h : stripBrackets? (trim cs) = some element) :
    ofChars? cs = (ofChars? element).map .array := by
  rw [ofChars?]
  split
  · next found hfound =>
    rw [h] at hfound
    cases hfound
    rfl
  · next hnone =>
    rw [h] at hnone
    cases hnone

theorem ofChars?_of_plain (h : stripBrackets? (trim cs) = none) :
    ofChars? cs = if (trim cs).isEmpty then none
      else match Primitive.ofKeyword? (String.ofList (trim cs)) with
        | some p => some (.primitive p)
        | none => some (.reference (String.ofList (trim cs))) := by
  rw [ofChars?]
  split
  · next found hfound =>
    rw [h] at hfound
    cases hfound
  · rfl

/-- The blanks around a name do not count. -/
theorem ofChars?_congr (h : trim cs = trim ds) : ofChars? cs = ofChars? ds := by
  cases hs : stripBrackets? (trim ds) with
  | none => rw [ofChars?_of_plain hs, ofChars?_of_plain (h ▸ hs), h]
  | some element => rw [ofChars?_of_brackets hs, ofChars?_of_brackets (h ▸ hs)]

theorem ofChars?_brackets (cs : List Char) :
    ofChars? (cs ++ ['[', ']']) = (ofChars? cs).map .array := by
  have hstrip : stripBrackets? (trim (cs ++ ['[', ']'])) = some (trimStart cs) := by
    rw [trim_brackets, stripBrackets?, List.reverse_append]
    show some (trimStart cs).reverse.reverse = some (trimStart cs)
    rw [List.reverse_reverse]
  rw [ofChars?_of_brackets hstrip, ofChars?_congr (trim_trimStart cs)]

/-- A name that is read as a class is read as the name without the blanks around it. -/
theorem eq_trimmed_of_reference {s n : String} (h : ofName? s = some (.reference n)) :
    n = trimmed s := by
  have h : ofChars? s.toList = some (.reference n) := h
  cases hstrip : stripBrackets? (trim s.toList) with
  | some element =>
    rw [ofChars?_of_brackets hstrip, Option.map_eq_some_iff] at h
    obtain ⟨t, -, harray⟩ := h
    cases harray
  | none =>
    rw [ofChars?_of_plain hstrip] at h
    split at h
    · cases h
    · split at h
      · cases h
      · cases h
        rfl

/-! ## The library name -/

theorem ofChars?_binaryName (h : ofChars? cs = some t) :
    ofChars? t.binaryName.toList = some t := by
  fun_induction ofChars? cs generalizing t
  case case1 name element hstrip ih =>
    obtain ⟨t', ht', rfl⟩ := Option.map_eq_some_iff.mp h
    rw [binaryName, String.toList_append]
    show ofChars? (t'.binaryName.toList ++ ['[', ']']) = some (.array t')
    rw [ofChars?_brackets, ih ht', Option.map_some]
  case case2 => cases h
  case case3 cs name hstrip hne p hkeyword =>
    cases h
    have hread : ofChars? cs = some (.primitive p) := by
      rw [ofChars?_of_plain hstrip, if_neg hne, hkeyword]
    rw [binaryName, Primitive.keyword_of_ofKeyword? hkeyword, String.toList_ofList,
      ofChars?_congr (trim_trim cs), hread]
  case case4 cs name hstrip hne hkeyword =>
    cases h
    have hread : ofChars? cs = some (.reference (String.ofList name)) := by
      rw [ofChars?_of_plain hstrip, if_neg hne, hkeyword]
    rw [binaryName, String.toList_ofList, ofChars?_congr (trim_trim cs), hread]

/-- **Every type that can be read is read from its library name.** -/
theorem ofName?_binaryName (h : Readable t) : ofName? t.binaryName = some t := by
  obtain ⟨name, hname⟩ := h
  exact ofChars?_binaryName hname

end JavaType
end Java
end Stubwright

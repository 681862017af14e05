import Mathlib.Data.List.TakeWhile
import Stubwright.Java.Identifier
import Stubwright.Text.Blank

/-!
# What a binary name is

    text ──pieces──▶ segments ──isIdentifier──▶ isBinaryName
      └──────Joined identifiers──────────────────────┘

`isBinaryName` cuts a text at its separators and looks at the pieces. `BinaryName` says the same the
other way round, as a rule by which names are formed: identifiers with a dot or a dollar sign between
each two (`isBinaryName_iff`). Here the dollar sign only separates. An identifier by itself may hold
one, but a name that is put together from such an identifier is cut apart inside it.
-/

namespace Stubwright.Java

/-- At least one word, and a separator between each two. -/
inductive Joined (word : List Char → Prop) : List Char → Prop
  | single {w : List Char} : word w → Joined word w
  | join {w rest : List Char} {c : Char} :
      word w → isNameSeparator c = true → Joined word rest → Joined word (w ++ c :: rest)

/-- The characters of an identifier. -/
def IsWord (w : List Char) : Prop := isIdentifier (String.ofList w) = true

instance : DecidablePred IsWord :=
  fun w => inferInstanceAs (Decidable (isIdentifier (String.ofList w) = true))

/-- The characters of an identifier without a dollar sign. -/
def IsSegment (w : List Char) : Prop := IsWord w ∧ '$' ∉ w

/-- Identifiers without dollar signs, joined by dots and dollar signs. -/
def BinaryName (s : String) : Prop := Joined IsSegment s.toList

/-- The wide sense: any identifiers, joined by dots and dollar signs. -/
def WideName (s : String) : Prop := Joined IsWord s.toList

/-! ## Words and separators -/

theorem isIdentifierPart_of_mem {w : List Char} (hw : IsWord w) :
    ∀ c ∈ w, isIdentifierPart c = true := by
  unfold IsWord isIdentifier at hw
  rw [String.toList_ofList] at hw
  cases w with
  | nil => cases hw
  | cons first rest =>
    simp only [Bool.and_eq_true, List.all_eq_true] at hw
    obtain ⟨⟨hfirst, hrest⟩, -⟩ := hw
    refine List.forall_mem_cons.mpr ⟨?_, hrest⟩
    -- what may start an identifier may also go on with one
    simp only [isIdentifierStart, isIdentifierPart, Bool.or_eq_true] at hfirst ⊢
    rcases hfirst with (hletter | hunderscore) | hdollar
    · exact .inl (.inl (.inl hletter))
    · exact .inl (.inr hunderscore)
    · exact .inr hdollar

theorem IsWord.ne_nil {w : List Char} (hw : IsWord w) : w ≠ [] := by
  rintro rfl
  revert hw
  decide

theorem BinaryName.ne_nil {s : String} (h : BinaryName s) : s.toList ≠ [] := by
  unfold BinaryName at h
  generalize s.toList = cs at h
  cases h with
  | single hw => exact hw.1.ne_nil
  | join _ _ _ => simp

/-- No identifier holds a dot. -/
theorem dot_not_mem {w : List Char} (hw : IsWord w) : '.' ∉ w := by
  intro hdot
  have hpart : isIdentifierPart '.' = true := isIdentifierPart_of_mem hw '.' hdot
  revert hpart
  decide

/-- An identifier without a dollar sign is one without separators. -/
theorem isSegment_iff {w : List Char} :
    IsSegment w ↔ IsWord w ∧ ∀ c ∈ w, isNameSeparator c = false := by
  unfold IsSegment isNameSeparator
  constructor
  · rintro ⟨hword, hdollar⟩
    refine ⟨hword, fun c hc => ?_⟩
    have hdot : c ≠ '.' := fun h => dot_not_mem hword (h ▸ hc)
    have hne : c ≠ '$' := fun h => hdollar (h ▸ hc)
    simp [hdot, hne]
  · rintro ⟨hword, hplain⟩
    refine ⟨hword, fun hmem => ?_⟩
    have hsep := hplain '$' hmem
    simp at hsep

/-! ## Cutting and joining -/

/-- A text whose pieces are identifiers is joined from segments. What has been passed without
meeting a separator is `before`. -/
theorem joined_of_pieces (before cs : List Char)
    (hbefore : ∀ c ∈ before, isNameSeparator c = false)
    (h : ∀ w ∈ (before ++ cs).splitOnP isNameSeparator, IsWord w) :
    Joined IsSegment (before ++ cs) := by
  induction cs generalizing before with
  | nil =>
    rw [List.append_nil] at h ⊢
    rw [List.splitOnP_eq_singleton (by simpa using hbefore)] at h
    exact .single (isSegment_iff.mpr ⟨h before List.mem_cons_self, hbefore⟩)
  | cons c cs ih =>
    cases hc : isNameSeparator c with
    | true =>
      rw [List.splitOnP_append_cons_of_forall_mem (by simpa using hbefore) c hc,
        List.forall_mem_cons] at h
      obtain ⟨hword, hrest⟩ := h
      have hsegment : IsSegment before := isSegment_iff.mpr ⟨hword, hbefore⟩
      exact .join hsegment hc (ih [] (List.forall_mem_nil _) hrest)
    | false =>
      have hpass : before ++ c :: cs = (before ++ [c]) ++ cs := by simp
      rw [hpass] at h ⊢
      refine ih (before ++ [c]) ?_ h
      intro x hx
      rcases List.mem_append.mp hx with hx | hx
      · exact hbefore x hx
      · rw [List.mem_singleton.mp hx]
        exact hc

/-- The pieces of a text that is joined from segments are identifiers. -/
theorem pieces_of_joined {cs : List Char} (h : Joined IsSegment cs) :
    ∀ w ∈ cs.splitOnP isNameSeparator, IsWord w := by
  induction h with
  | single hw =>
    obtain ⟨hword, hplain⟩ := isSegment_iff.mp hw
    rw [List.splitOnP_eq_singleton (by simpa using hplain)]
    simpa using hword
  | join hw hc _ ih =>
    obtain ⟨hword, hplain⟩ := isSegment_iff.mp hw
    rw [List.splitOnP_append_cons_of_forall_mem (by simpa using hplain) _ hc,
      List.forall_mem_cons]
    exact ⟨hword, ih⟩

/-- **A binary name is a sequence of identifiers without dollar signs, joined by dots and dollar
signs.** -/
theorem isBinaryName_iff {s : String} : isBinaryName s = true ↔ BinaryName s := by
  have hpieces : isBinaryName s = true ↔ ∀ w ∈ s.toList.splitOnP isNameSeparator, IsWord w := by
    simp [isBinaryName, Text.pieces, IsWord]
  rw [hpieces]
  constructor
  · intro h
    exact joined_of_pieces [] s.toList (List.forall_mem_nil _) h
  · exact pieces_of_joined

example : isBinaryName "a.Outer$Inner" = true ∧ isBinaryName "a.$Proxy0" = false := by
  decide +kernel

/-! ## Names hold no blanks -/

/-- A binary name consists of characters of identifiers and of dots. -/
theorem BinaryName.forall_mem {s : String} (h : BinaryName s) :
    ∀ c ∈ s.toList, isIdentifierPart c = true ∨ c = '.' := by
  unfold BinaryName at h
  generalize s.toList = cs at h ⊢
  induction h with
  | single hw => exact fun c hc => .inl (isIdentifierPart_of_mem hw.1 c hc)
  | @join w rest sep hw hsep _ ih =>
    intro c hc
    rcases List.mem_append.mp hc with hc | hc
    · exact .inl (isIdentifierPart_of_mem hw.1 c hc)
    · rcases List.mem_cons.mp hc with rfl | hc
      · simp only [isNameSeparator, Bool.or_eq_true, beq_iff_eq] at hsep
        rcases hsep with rfl | rfl
        · exact .inr rfl
        · exact .inl (by decide)
      · exact ih c hc

/-- The blank characters from `0x80` on, as closed ranges. -/
def wideBlanks : List (Nat × Nat) := [
  (0x85, 0x85), (0xA0, 0xA0), (0x1680, 0x1680), (0x2000, 0x200A), (0x2028, 0x2029),
  (0x202F, 0x202F), (0x205F, 0x205F), (0x3000, 0x3000)]

/-- Two closed ranges have no number in common. -/
def apart (r b : Nat × Nat) : Bool := Nat.blt r.2 b.1 || Nat.blt b.2 r.1

theorem inRanges_of_apart {n : Nat} {b : Nat × Nat} (hn : b.1 ≤ n ∧ n ≤ b.2)
    {ranges : List (Nat × Nat)} (h : ranges.all (apart · b) = true) :
    Text.inRanges n ranges = false := by
  rw [Text.inRanges, List.any_eq_false]
  intro r hr
  have hapart := List.all_eq_true.mp h r hr
  simp only [apart, Nat.blt_eq, Bool.or_eq_true] at hapart
  simp only [Bool.and_eq_true, decide_eq_true_eq]
  omega

/-- The blank characters lie between the letters and digits of all scripts. -/
theorem apart_of_wideBlank : ∀ b ∈ wideBlanks,
    Text.letterRanges.all (apart · b) = true ∧ Text.digitRanges.all (apart · b) = true := by
  decide +kernel

theorem isBlank_cases {c : Char} (h : Text.isBlank c = true) :
    c.toNat ∈ [0x9, 0xA, 0xB, 0xC, 0xD, 0x20] ∨
    (¬ c.toNat < 0x80 ∧ ∃ b ∈ wideBlanks, b.1 ≤ c.toNat ∧ c.toNat ≤ b.2) := by
  simp only [Text.isBlank, Bool.or_eq_true, Bool.and_eq_true, decide_eq_true_eq, beq_iff_eq] at h
  simp only [wideBlanks, List.mem_cons, List.not_mem_nil, or_false, exists_eq_or_imp,
    exists_eq_left]
  omega

/-- No identifier holds a blank, whatever the script. -/
theorem isIdentifierPart_of_isBlank {c : Char} (h : Text.isBlank c = true) :
    isIdentifierPart c = false := by
  rcases isBlank_cases h with hcode | ⟨hwide, b, hb, hn⟩
  · have hcodes : ∀ n ∈ [0x9, 0xA, 0xB, 0xC, 0xD, 0x20],
        isIdentifierPart (Char.ofNat n) = false := by decide
    rw [← Char.ofNat_toNat c]
    exact hcodes c.toNat hcode
  · obtain ⟨hletter, hdigit⟩ := apart_of_wideBlank b hb
    have hunderscore : c ≠ '_' := by
      rintro rfl
      exact hwide (by decide)
    have hdollar : c ≠ '$' := by
      rintro rfl
      exact hwide (by decide)
    simp [isIdentifierPart, Text.isLetter, Text.isDigit, hwide, inRanges_of_apart hn hletter,
      inRanges_of_apart hn hdigit, hunderscore, hdollar]

theorem BinaryName.forall_not_blank {s : String} (h : BinaryName s) :
    ∀ c ∈ s.toList, Text.isBlank c = false := by
  intro c hc
  cases hblank : Text.isBlank c with
  | false => rfl
  | true =>
    rcases h.forall_mem c hc with hpart | rfl
    · rw [isIdentifierPart_of_isBlank hblank] at hpart
      cases hpart
    · revert hblank
      decide

/-! ## The last piece of a name -/

/-- The last piece of a binary name is an identifier. -/
theorem isSegment_lastPiece {cs : List Char} (h : Joined IsSegment cs) :
    IsSegment (cs.reverse.takeWhile (!isNameSeparator ·)).reverse := by
  induction h with
  | @single w hw =>
    have hpass : ∀ c ∈ w.reverse, (!isNameSeparator c) = true := by
      intro c hc
      rw [(isSegment_iff.mp hw).2 c (List.mem_reverse.mp hc)]
      rfl
    rw [List.takeWhile_eq_self_iff.mpr hpass, List.reverse_reverse]
    exact hw
  | @join w rest c hw hc _ ih =>
    -- reading backwards ends before the last separator, which is not in front of the others
    have hlast : (w ++ c :: rest).reverse.takeWhile (!isNameSeparator ·)
        = rest.reverse.takeWhile (!isNameSeparator ·) := by
      have hstop : (c :: w.reverse).takeWhile (!isNameSeparator ·) = [] :=
        List.takeWhile_cons_of_neg (by simp [hc])
      rw [List.reverse_append, List.reverse_cons, List.append_assoc, List.singleton_append,
        List.takeWhile_append, hstop]
      split
      · next hlength =>
        rw [List.append_nil]
        exact ((List.takeWhile_prefix _).eq_of_length hlength).symm
      · rfl
    rw [hlast]
    exact ih

end Stubwright.Java

import Mathlib.Data.List.TakeWhile
import Stubwright.Markup.Escape

/-!
# Spellings of a value

    value ──Spelling──▶ raw text ──unescape──▶ value

A character of a value may stand for itself, or be written as a reference: by one of the five names,
by its decimal number or by its hexadecimal number. `Spelling` relates a value to all its raw texts.
Whichever is chosen for each character, reading gives the value back (`unescape_eq`).
-/

namespace Stubwright.Markup

/-! ## Numerals -/

/-- The number that some digits stand for, the most significant first, behind `acc`. -/
def numberFrom (radix acc : Nat) (digits : List Nat) : Nat :=
  digits.foldl (fun n digit => n * radix + digit) acc

/-- At least one digit, and all of them together stand for `n`. -/
structure Numeral (radix : Nat) (cs : List Char) (n : Nat) : Prop where
  nonempty : cs ≠ []
  value : (cs.mapM (digitValue? radix)).map (numberFrom radix 0) = some n

theorem le_numberFrom {radix : Nat} (hradix : 0 < radix) (acc : Nat) (digits : List Nat) :
    acc ≤ numberFrom radix acc digits := by
  induction digits generalizing acc with
  | nil => exact Nat.le_refl acc
  | cons digit digits ih =>
    calc acc ≤ acc * radix := Nat.le_mul_of_pos_right acc hradix
      _ ≤ acc * radix + digit := Nat.le_add_right _ _
      _ ≤ numberFrom radix (acc * radix + digit) digits := ih _

/-- Digits are read to their number if it is a code: on the way there it only grows. -/
theorem readDigits_eq {radix acc n : Nat} (hradix : 0 < radix) {cs : List Char}
    (h : (cs.mapM (digitValue? radix)).map (numberFrom radix acc) = some n) (hn : n < codeLimit) :
    readDigits radix acc cs = .ok n := by
  induction cs generalizing acc with
  | nil =>
    cases h
    rfl
  | cons c cs ih =>
    rw [List.mapM_cons] at h
    cases hc : digitValue? radix c with
    | none => simp [hc] at h
    | some digit =>
      cases hcs : cs.mapM (digitValue? radix) with
      | none => simp [hc, hcs] at h
      | some digits =>
        have hnumber : numberFrom radix (acc * radix + digit) digits = n := by
          simpa [hc, hcs, numberFrom] using h
        have hle : acc * radix + digit ≤ n := hnumber ▸ le_numberFrom hradix _ digits
        -- so the limit is not passed at this digit
        rw [readDigits, hc]
        dsimp only
        rw [if_pos (Nat.lt_of_le_of_lt hle hn)]
        apply ih
        rw [hcs, Option.map_some, hnumber]

/-- A numeral consists of digits. -/
theorem Numeral.digits {radix n : Nat} {cs : List Char} (h : Numeral radix cs n) :
    ∀ c ∈ cs, digitValue? radix c ≠ none := by
  have hread : (cs.mapM (digitValue? radix)).isSome = true := by
    cases hcs : cs.mapM (digitValue? radix) with
    | none => simpa [hcs] using h.value
    | some digits => rfl
  clear h
  induction cs with
  | nil => exact List.forall_mem_nil _
  | cons c cs ih =>
    rw [List.mapM_cons] at hread
    cases hc : digitValue? radix c with
    | none => simp [hc] at hread
    | some digit =>
      rw [List.forall_mem_cons]
      refine ⟨by simp [hc], ih ?_⟩
      cases hcs : cs.mapM (digitValue? radix) with
      | none => simp [hc, hcs] at hread
      | some digits => rfl

theorem readNumber_eq {radix n : Nat} (hradix : 0 < radix) {cs : List Char}
    (h : Numeral radix cs n) (hn : n < codeLimit)
    (hplus : digitValue? radix '+' = none) (hminus : digitValue? radix '-' = none) :
    readNumber radix cs = .ok n := by
  obtain ⟨c, rest, rfl⟩ := List.exists_cons_of_ne_nil h.nonempty
  have hc : digitValue? radix c ≠ none := h.digits c List.mem_cons_self
  -- a numeral has no sign in front
  rw [readNumber]
  · exact readDigits_eq hradix h.value hn
  · intro heq
    cases heq
  · intro rest' heq
    cases heq
    exact hc hplus
  · intro rest' heq
    cases heq
    exact hc hminus

/-! ## References -/

theorem toNat_lt_codeLimit (c : Char) : c.toNat < codeLimit := by
  have h : c.val.toNat < 4294967296 := c.val.toNat_lt
  exact h

/-- Every character but the first has a code. -/
theorem charOfCode_toNat {c : Char} (hc : c.toNat ≠ 0) : charOfCode c.toNat = .ok c := by
  have hvalid : c.toNat.isValidChar := c.valid
  unfold charOfCode
  rw [if_neg hc, dif_pos hvalid]
  congr 1
  apply Char.ext
  exact UInt32.ofNat_toNat

/-- The names of characters that markup is made of. -/
def entityNames : List (String × Char) :=
  [("lt", '<'), ("gt", '>'), ("amp", '&'), ("apos", '\''), ("quot", '"')]

/-- What may stand between `&` and `;` for a character. -/
inductive ReferenceTo (c : Char) : List Char → Prop
  | name {name : String} : (name, c) ∈ entityNames → ReferenceTo c name.toList
  | decimal {digits : List Char} : c.toNat ≠ 0 → Numeral 10 digits c.toNat →
      ReferenceTo c ('#' :: digits)
  | hexadecimal {digits : List Char} : c.toNat ≠ 0 → Numeral 16 digits c.toNat →
      ReferenceTo c ('#' :: 'x' :: digits)

theorem charOfNumber_decimal {c : Char} {digits : List Char} (hc : c.toNat ≠ 0)
    (h : Numeral 10 digits c.toNat) : charOfNumber digits = .ok c := by
  have hread : readNumber 10 digits = .ok c.toNat :=
    readNumber_eq (by decide) h (toNat_lt_codeLimit c) (by decide) (by decide)
  unfold charOfNumber
  split
  · next digits =>
    -- no decimal digit looks like the mark of the other numerals
    exact absurd (by decide) (h.digits 'x' List.mem_cons_self)
  · rw [hread]
    exact charOfCode_toNat hc

theorem charOfNumber_hexadecimal {c : Char} {digits : List Char} (hc : c.toNat ≠ 0)
    (h : Numeral 16 digits c.toNat) : charOfNumber ('x' :: digits) = .ok c := by
  have hread : readNumber 16 digits = .ok c.toNat :=
    readNumber_eq (by decide) h (toNat_lt_codeLimit c) (by decide) (by decide)
  show (readNumber 16 digits >>= charOfCode) = .ok c
  rw [hread]
  exact charOfCode_toNat hc

theorem resolveReference_eq {c : Char} {body : List Char} (h : ReferenceTo c body) (start : Nat) :
    resolveReference start body = .ok c := by
  cases h with
  | name hname =>
    simp only [entityNames, List.mem_cons, List.not_mem_nil, or_false, Prod.mk.injEq] at hname
    rcases hname with ⟨rfl, rfl⟩ | ⟨rfl, rfl⟩ | ⟨rfl, rfl⟩ | ⟨rfl, rfl⟩ | ⟨rfl, rfl⟩ <;> rfl
  | decimal hc hdigits =>
    rw [resolveReference, charOfNumber_decimal hc hdigits]
    rfl
  | hexadecimal hc hdigits =>
    rw [resolveReference, charOfNumber_hexadecimal hc hdigits]
    rfl

/-- Digits are no marks of a reference. -/
theorem isReferenceBody_of_numeral {radix n : Nat} {cs : List Char} (h : Numeral radix cs n) :
    ∀ c ∈ cs, isReferenceBody c = true := by
  intro c hc
  have hdigit : digitValue? radix c ≠ none := h.digits c hc
  simp only [isReferenceBody, Bool.and_eq_true, bne_iff_ne, ne_eq]
  constructor
  · rintro rfl
    exact hdigit rfl
  · rintro rfl
    exact hdigit rfl

theorem isReferenceBody_of_reference {c : Char} {body : List Char} (h : ReferenceTo c body) :
    ∀ d ∈ body, isReferenceBody d = true := by
  cases h with
  | name hname =>
    have hall : ∀ entry ∈ entityNames, entry.1.toList.all isReferenceBody = true := by decide
    exact List.all_eq_true.mp (hall _ hname)
  | decimal hc hdigits =>
    rw [List.forall_mem_cons]
    exact ⟨by decide, isReferenceBody_of_numeral hdigits⟩
  | hexadecimal hc hdigits =>
    rw [List.forall_mem_cons, List.forall_mem_cons]
    exact ⟨by decide, by decide, isReferenceBody_of_numeral hdigits⟩

/-! ## Values -/

/-- The raw texts of a value. -/
inductive Spelling : List Char → List Char → Prop
  | nil : Spelling [] []
  | plain {c : Char} {value raw : List Char} : c ≠ '<' → c ≠ '&' → Spelling value raw →
      Spelling (c :: value) (c :: raw)
  | reference {c : Char} {value body raw : List Char} : ReferenceTo c body → Spelling value raw →
      Spelling (c :: value) ('&' :: body ++ ';' :: raw)

theorem unescapeFrom_plain {c : Char} (hc : c ≠ '&') (total position : Nat) (cs : List Char) :
    unescapeFrom total position (c :: cs)
      = (unescapeFrom total (position + c.utf8Size) cs).map (c :: ·) := by
  rw [unescapeFrom, if_pos (by simpa using hc)]
  cases unescapeFrom total (position + c.utf8Size) cs <;> rfl

theorem unescapeFrom_reference {body : List Char} (hbody : ∀ c ∈ body, isReferenceBody c = true)
    {c : Char} (hc : ∀ start, resolveReference start body = .ok c) (total position : Nat)
    (cs : List Char) :
    unescapeFrom total position ('&' :: body ++ ';' :: cs)
      = (unescapeFrom total (position + 2 + byteLength body) cs).map (c :: ·) := by
  have hdrop : (body ++ ';' :: cs).dropWhile isReferenceBody = ';' :: cs := by
    rw [List.dropWhile_append_of_pos hbody]
    exact List.dropWhile_cons_of_neg (by decide)
  have htake : (body ++ ';' :: cs).takeWhile isReferenceBody = body := by
    rw [List.takeWhile_append_of_pos hbody, List.takeWhile_cons_of_neg (by decide), List.append_nil]
  rw [List.cons_append, unescapeFrom, if_neg (by decide)]
  dsimp only
  split
  · next after h =>
    rw [hdrop] at h
    cases h
    rw [htake, hc]
    cases unescapeFrom total (position + 2 + byteLength body) cs <;> rfl
  · next h => exact absurd hdrop (h cs)

theorem unescapeFrom_eq {value raw : List Char} (h : Spelling value raw) (total position : Nat) :
    unescapeFrom total position raw = .ok value := by
  induction h generalizing position with
  | nil => rw [unescapeFrom]
  | plain _ hamp _ ih =>
    rw [unescapeFrom_plain hamp, ih]
    rfl
  | reference hbody _ ih =>
    rw [unescapeFrom_reference (isReferenceBody_of_reference hbody) (resolveReference_eq hbody), ih]
    rfl

/-- **Every spelling of a value is read as the value.** -/
theorem unescape_eq {value : String} {raw : List Char} (h : Spelling value.toList raw) :
    unescape raw = .ok value := by
  rw [unescape, unescapeFrom_eq h]
  exact congrArg Except.ok String.ofList_toList

/-! ## The plain spelling -/

/-- The raw text that can stand between double quotes: only what has to be replaced is replaced. -/
def plainSpelling (value : List Char) : List Char :=
  value.flatMap fun c =>
    match c with
    | '<' => "&lt;".toList
    | '&' => "&amp;".toList
    | '"' => "&quot;".toList
    | c => [c]

/-- **Every value has a spelling.** -/
theorem spelling_plainSpelling (value : List Char) : Spelling value (plainSpelling value) := by
  induction value with
  | nil => exact .nil
  | cons c value ih =>
    have hname : ∀ {c : Char} (name : String), (name, c) ∈ entityNames →
        Spelling (c :: value) ('&' :: name.toList ++ ';' :: plainSpelling value) :=
      fun _ hmem => .reference (.name hmem) ih
    have hcons : plainSpelling (c :: value) = _ ++ plainSpelling value := List.flatMap_cons
    rw [hcons]
    split
    · exact hname "lt" (by decide)
    · exact hname "amp" (by decide)
    · exact hname "quot" (by decide)
    · next hlt hamp _ => exact .plain hlt hamp ih

theorem not_mem_plainSpelling (value : List Char) : '"' ∉ plainSpelling value := by
  intro h
  obtain ⟨c, -, hc⟩ := List.mem_flatMap.mp h
  split at hc
  · revert hc
    decide
  · revert hc
    decide
  · revert hc
    decide
  · next hquote => exact hquote (List.mem_singleton.mp hc).symm

/-- A value that is written as it is. -/
def Verbatim (value : List Char) : Prop := plainSpelling value = value

/-- A value without any of the characters that are replaced is written as it is. -/
theorem verbatim_of_plain {value : List Char} (h : ∀ c ∈ value, c ≠ '<' ∧ c ≠ '&' ∧ c ≠ '"') :
    Verbatim value := by
  unfold Verbatim
  induction value with
  | nil => rfl
  | cons c value ih =>
    rw [List.forall_mem_cons] at h
    obtain ⟨⟨hlt, hamp, hquote⟩, hrest⟩ := h
    rw [plainSpelling, List.flatMap_cons, ← plainSpelling, ih hrest]
    split
    · exact absurd rfl hlt
    · exact absurd rfl hamp
    · exact absurd rfl hquote
    · rfl

end Stubwright.Markup

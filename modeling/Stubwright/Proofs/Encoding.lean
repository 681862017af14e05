import Stubwright.Text.Utf8

/-!
# Characters as bytes

    text ──utf8──▶ bytes of its characters, one after the other ──ofUtf8?──▶ text

The bytes of a text are those of its characters in a row (`utf8_ofList`), so that bytes can be cut
wherever characters can. A byte below `0x80` stands for the character of its number and for nothing
else (`toNat_of_mem`); a separator is therefore found among the bytes where it is found among the
characters.
-/

namespace Stubwright.Text

/-- The bytes of characters in a row. -/
def utf8Chars (cs : List Char) : List UInt8 := cs.flatMap String.utf8EncodeChar

theorem utf8_ofList (cs : List Char) : utf8 (String.ofList cs) = utf8Chars cs := by
  unfold utf8 utf8Chars
  rw [String.toUTF8, String.toByteArray_ofList, List.utf8Encode]
  simp

theorem utf8_eq (s : String) : utf8 s = utf8Chars s.toList := by
  rw [← utf8_ofList, String.ofList_toList]

theorem ofUtf8?_utf8 (s : String) : ofUtf8? (utf8 s) = some s := by
  unfold ofUtf8? utf8 String.fromUTF8?
  rw [Array.toArray_toList]
  exact dif_pos s.isValidUTF8

theorem length_utf8 (s : String) : (utf8 s).length = s.utf8ByteSize := rfl

@[simp] theorem utf8Chars_nil : utf8Chars [] = [] := rfl

@[simp] theorem utf8Chars_cons (c : Char) (cs : List Char) :
    utf8Chars (c :: cs) = String.utf8EncodeChar c ++ utf8Chars cs := rfl

@[simp] theorem utf8Chars_append (cs ds : List Char) :
    utf8Chars (cs ++ ds) = utf8Chars cs ++ utf8Chars ds :=
  List.flatMap_append

theorem length_utf8Chars_cons (c : Char) (cs : List Char) :
    (utf8Chars (c :: cs)).length = c.utf8Size + (utf8Chars cs).length := by
  rw [utf8Chars_cons, List.length_append, String.length_utf8EncodeChar]

/-- Bytes below `0x80` stand for themselves: the bytes of all other characters are above. -/
theorem toNat_of_mem {c : Char} {b : UInt8} (hb : b.toNat < 0x80)
    (h : b ∈ String.utf8EncodeChar c) : c.toNat = b.toNat := by
  have hhigh : ∀ n, 0x80 ≤ n → n < 0x100 → b ≠ UInt8.ofNat n := by
    rintro n hn hn' rfl
    rw [UInt8.toNat_ofNat_of_lt' hn'] at hb
    omega
  unfold String.utf8EncodeChar at h
  dsimp only at h
  split at h
  · next hlow =>
    rw [List.mem_singleton.mp h, UInt8.toNat_ofNat_of_lt' (Nat.lt_of_le_of_lt hlow (by decide))]
    rfl
  · exfalso
    split at h
    · simp only [List.mem_cons, List.not_mem_nil, or_false] at h
      rcases h with h | h <;> exact hhigh _ (by omega) (by omega) h
    · split at h
      · simp only [List.mem_cons, List.not_mem_nil, or_false] at h
        rcases h with h | h | h <;> exact hhigh _ (by omega) (by omega) h
      · simp only [List.mem_cons, List.not_mem_nil, or_false] at h
        rcases h with h | h | h | h <;> exact hhigh _ (by omega) (by omega) h

/-- A byte below `0x80` is there only if its character is. -/
theorem not_mem_utf8Chars {c : Char} (hc : c.toNat < 0x80) {cs : List Char} (h : c ∉ cs) :
    UInt8.ofNat c.toNat ∉ utf8Chars cs := by
  intro hmem
  obtain ⟨d, hd, hbyte⟩ := List.mem_flatMap.mp hmem
  have hvalue : (UInt8.ofNat c.toNat).toNat = c.toNat :=
    UInt8.toNat_ofNat_of_lt' (Nat.lt_trans hc (by decide))
  have hcode : d.toNat = c.toNat := by
    rw [toNat_of_mem (by rwa [hvalue]) hbyte, hvalue]
  exact h (Char.toNat_inj.mp hcode ▸ hd)

end Stubwright.Text

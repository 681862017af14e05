/-!
# Text as bytes

Texts are written to files as UTF-8. `ofUtf8?` reads bytes back if all of them are UTF-8;
`ofUtf8Lossy` reads any bytes and puts one replacement character for each longest start of a
character that is not completed.
-/

namespace Stubwright.Text

/-- The UTF-8 bytes of a text. -/
def utf8 (s : String) : List UInt8 := s.toUTF8.data.toList

/-- The text with these UTF-8 bytes, if they are UTF-8. -/
def ofUtf8? (bytes : List UInt8) : Option String := String.fromUTF8? ⟨bytes.toArray⟩

/-- The character that stands for bytes that make none. -/
def replacement : Char := '\uFFFD'

/-- What the first byte of a character announces: the bits it brings, the range of the second byte,
and how many bytes follow. -/
def lead? (b : UInt8) : Option (Nat × (UInt8 × UInt8) × Nat) :=
  let n := b.toNat
  if n < 0x80 then some (n, (0x80, 0xBF), 0)
  else if 0xC2 ≤ n && n ≤ 0xDF then some (n - 0xC0, (0x80, 0xBF), 1)
  else if n == 0xE0 then some (0, (0xA0, 0xBF), 2)
  else if n == 0xED then some (0xD, (0x80, 0x9F), 2)
  else if 0xE1 ≤ n && n ≤ 0xEF then some (n - 0xE0, (0x80, 0xBF), 2)
  else if n == 0xF0 then some (0, (0x90, 0xBF), 3)
  else if 0xF1 ≤ n && n ≤ 0xF3 then some (n - 0xF0, (0x80, 0xBF), 3)
  else if n == 0xF4 then some (4, (0x80, 0x8F), 3)
  else none

/-- Reads `count` bytes that go on a character, the first of them from the given range, onto the
bits `acc`: the code if all are there, and what was not read. -/
def continuation (acc : Nat) (range : UInt8 × UInt8) :
    Nat → List UInt8 → Option Nat × List UInt8
  | 0, bytes => (some acc, bytes)
  | _ + 1, [] => (none, [])
  | count + 1, b :: bytes =>
    if range.1 ≤ b && b ≤ range.2 then
      continuation (acc * 64 + (b.toNat - 0x80)) (0x80, 0xBF) count bytes
    else (none, b :: bytes)

theorem length_continuation (acc : Nat) (range : UInt8 × UInt8) (count : Nat)
    (bytes : List UInt8) : (continuation acc range count bytes).2.length ≤ bytes.length := by
  induction bytes generalizing acc range count with
  | nil => cases count <;> simp [continuation]
  | cons b bytes ih =>
    cases count with
    | zero => simp [continuation]
    | succ count =>
      simp only [continuation]
      split
      · exact Nat.le_succ_of_le (ih _ _ _)
      · simp

/-- The characters of bytes that need not be UTF-8. -/
def lossyChars (bytes : List UInt8) : List Char :=
  match bytes with
  | [] => []
  | b :: rest =>
    match lead? b with
    | none => replacement :: lossyChars rest
    | some (bits, range, count) =>
      let c := ((continuation bits range count rest).1.map Char.ofNat).getD replacement
      c :: lossyChars (continuation bits range count rest).2
termination_by bytes.length
decreasing_by
  · simp
  · have := length_continuation bits range count rest
    simp only [List.length_cons]
    omega

/-- Reads any bytes as text. -/
def ofUtf8Lossy (bytes : List UInt8) : String := String.ofList (lossyChars bytes)

end Stubwright.Text

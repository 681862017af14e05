import Stubwright.Markup.Fault

/-!
# References in attribute values

    raw value ──unescape──▶ value

A reference runs from `&` to `;` and stands for one character: five by name, all others by their
number, decimal or hexadecimal. The first reference that cannot be resolved decides the fault.
-/

namespace Stubwright.Markup

/-- The number of bytes `cs` takes in UTF-8. -/
def byteLength (cs : List Char) : Nat := cs.foldr (fun c n => c.utf8Size + n) 0

/-- The value of `c` as a digit of the given radix, for radixes up to sixteen. -/
def digitValue? (radix : Nat) (c : Char) : Option Nat :=
  let value? :=
    if '0' ≤ c && c ≤ '9' then some (c.toNat - '0'.toNat)
    else if 'a' ≤ c && c ≤ 'f' then some (c.toNat - 'a'.toNat + 10)
    else if 'A' ≤ c && c ≤ 'F' then some (c.toNat - 'A'.toNat + 10)
    else none
  value?.filter (· < radix)

/-- Codes have thirty-two bits. -/
def codeLimit : Nat := 0x100000000

/-- Reads digits onto `acc`; the number has to be a code at every step. -/
def readDigits (radix acc : Nat) : List Char → Except ReferenceFault Nat
  | [] => .ok acc
  | c :: cs =>
    match digitValue? radix c with
    | none => .error .badDigit
    | some d =>
      if acc * radix + d < codeLimit then readDigits radix (acc * radix + d) cs
      else .error .tooLarge

/-- Reads an unsigned number. -/
def readNumber (radix : Nat) (cs : List Char) : Except ReferenceFault Nat :=
  match cs with
  | [] => .error .noDigits
  | '+' :: _ => .error .signedNumber
  | '-' :: _ => .error .signedNumber
  | cs => readDigits radix 0 cs

/-- The character with the given code; zero and codes outside the character set have none. -/
def charOfCode (code : Nat) : Except ReferenceFault Char :=
  if code = 0 then .error .zero
  else if h : code.isValidChar then .ok ⟨code.toUInt32, by
    have hlt : code < 4294967296 := by
      rcases h with h | ⟨_, h⟩ <;> omega
    simpa [UInt32.isValidChar, Nat.mod_eq_of_lt hlt] using h⟩
  else .error (.noCharacter code)

/-- The character a numeric reference stands for, from the text between `#` and `;`. -/
def charOfNumber (cs : List Char) : Except ReferenceFault Char := do
  let code ← match cs with
    | 'x' :: digits => readNumber 16 digits
    | digits => readNumber 10 digits
  charOfCode code

/-- The character an entity name stands for. -/
def charOfEntity? (name : List Char) : Option Char :=
  if name = "lt".toList then some '<'
  else if name = "gt".toList then some '>'
  else if name = "amp".toList then some '&'
  else if name = "apos".toList then some '\''
  else if name = "quot".toList then some '"'
  else none

/-- The character the reference `&body;` stands for; `start` is the byte position of `body`. -/
def resolveReference (start : Nat) (body : List Char) : Except EscapeFault Char :=
  match body with
  | '#' :: number => (charOfNumber number).mapError .badNumber
  | name =>
    match charOfEntity? name with
    | some c => .ok c
    | none => .error (.unknownEntity start (start + byteLength name) (String.ofList name))

/-- Whether `c` can stand inside a reference. -/
def isReferenceBody (c : Char) : Bool := c != '&' && c != ';'

/-- Resolves the references of a value from byte position `position` on; the value is `total` bytes
long. -/
def unescapeFrom (total position : Nat) (cs : List Char) : Except EscapeFault (List Char) :=
  match cs with
  | [] => .ok []
  | c :: rest =>
    if c != '&' then do
      let tail ← unescapeFrom total (position + c.utf8Size) rest
      return c :: tail
    else
      let body := rest.takeWhile isReferenceBody
      match _h : rest.dropWhile isReferenceBody with
      | ';' :: after => do
        let resolved ← resolveReference (position + 1) body
        let tail ← unescapeFrom total (position + 2 + byteLength body) after
        return resolved :: tail
      | _ => .error (.unterminated position total)
termination_by cs.length
decreasing_by
  · simp
  · have := (List.dropWhile_suffix (l := rest) isReferenceBody).length_le
    rw [_h] at this
    simp only [List.length_cons] at this ⊢
    omega

/-- Resolves every reference of a raw value. -/
def unescape (cs : List Char) : Except EscapeFault String :=
  return String.ofList (← unescapeFrom (byteLength cs) 0 cs)

end Stubwright.Markup

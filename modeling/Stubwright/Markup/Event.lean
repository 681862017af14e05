import Stubwright.Markup.Escape

/-!
# Tags and their attributes

A tag is kept as its name and the raw text after it. `Tag.attributes` reads that text: well-formed
attributes come out in order, each key once, and what is malformed is left out. A value keeps its
blanks; its references are resolved.
-/

namespace Stubwright.Markup

/-- The blanks of markup: space, tab and the two line breaks. -/
def isSpace (c : Char) : Bool := c == ' ' || c == '\t' || c == '\r' || c == '\n'

/-- `cs` from its first character on that is no blank. -/
def skipSpace (cs : List Char) : List Char := cs.dropWhile isSpace

/-- A tag: the name, and everything after it. -/
structure Tag where
  name : String
  rest : List Char := []
  deriving DecidableEq, Repr, Inhabited

/-- What a reader of markup sees. Text, comments and declarations leave no trace. -/
inductive Event where
  | start (tag : Tag)
  /-- A tag that opens and closes an element at once. -/
  | empty (tag : Tag)
  | close (name : String)
  deriving DecidableEq, Repr, Inhabited

/-! ### Raw attributes -/

/-- Whether `c` goes on a key. -/
def isKeyPart (c : Char) : Bool := !isSpace c && c != '='

/-- The quoted value at the head of `cs` and what follows it: `none` if there is no value,
`some (none, _)` if the value is not quoted. -/
def quotedValue (cs : List Char) : Option (Option (List Char) × List Char) :=
  match cs with
  | [] => none
  | q :: rest =>
    if q == '"' || q == '\'' then
      match rest.dropWhile (· != q) with
      | [] => none
      | _ :: after => some (some (rest.takeWhile (· != q)), after)
    else some (none, cs.dropWhile (!isSpace ·))

theorem length_quotedValue {cs : List Char} {value? : Option (List Char)} {after : List Char}
    (h : quotedValue cs = some (value?, after)) : after.length ≤ cs.length := by
  unfold quotedValue at h
  split at h
  · cases h
  · next q rest =>
    split at h
    · split at h
      · cases h
      · next d =>
        cases h
        have := (List.dropWhile_suffix (l := rest) (· != q)).length_le
        rw [d] at this
        simp only [List.length_cons] at this ⊢
        omega
    · cases h
      exact (List.dropWhile_suffix _).length_le

/-- Reads the attributes at the head of `cs`; `seen` holds the keys met so far. A key starts with any
character that is no blank. A key with no `=` is dropped, a key met before is dropped up to the next
blank, and so is a value without quotes. A value that does not end drops the rest. -/
def rawAttributes (seen : List (List Char)) (cs : List Char) : List (List Char × List Char) :=
  match _hs : skipSpace cs with
  | [] => []
  | c :: rest =>
    let key := c :: rest.takeWhile isKeyPart
    match _he : skipSpace (rest.dropWhile isKeyPart) with
    | [] => []
    | d :: afterKey =>
      if d != '=' then rawAttributes seen (d :: afterKey)
      else if seen.contains key then rawAttributes seen (afterKey.dropWhile (!isSpace ·))
      else
        match _hq : quotedValue (skipSpace afterKey) with
        | none => []
        | some (none, after) => rawAttributes (key :: seen) after
        | some (some value, after) => (key, value) :: rawAttributes (key :: seen) after
termination_by cs.length
decreasing_by
  all_goals
    have h1 : (skipSpace cs).length ≤ cs.length := (List.dropWhile_suffix _).length_le
    have h2 : (rest.dropWhile isKeyPart).length ≤ rest.length :=
      (List.dropWhile_suffix _).length_le
    have h3 : (skipSpace (rest.dropWhile isKeyPart)).length ≤ (rest.dropWhile isKeyPart).length :=
      (List.dropWhile_suffix _).length_le
    rw [_hs] at h1
    rw [_he] at h3
    simp only [List.length_cons] at h1 h3 ⊢
  · omega
  · have h4 : (afterKey.dropWhile (!isSpace ·)).length ≤ afterKey.length :=
      (List.dropWhile_suffix _).length_le
    omega
  all_goals
    have h4 : (skipSpace afterKey).length ≤ afterKey.length := (List.dropWhile_suffix _).length_le
    have h5 := length_quotedValue _hq
    omega

/-- An attribute: its key and its value. -/
abbrev Attribute := String × String

/-- The attributes of a tag with every value unescaped, or the first value's fault. -/
def Tag.attributes (tag : Tag) : Except EscapeFault (List Attribute) :=
  (rawAttributes [] tag.rest).mapM fun (key, value) =>
    return (String.ofList key, ← unescape value)

/-- The value of the attribute with the given key. -/
def valueOf? (key : String) (attributes : List Attribute) : Option String :=
  (attributes.find? (·.1 == key)).map (·.2)

end Stubwright.Markup

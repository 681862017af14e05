import Stubwright.Archive.Manifest
import Stubwright.Host.Basic
import Stubwright.Proofs.Encoding

/-!
# Manifests are read back

    headers ──render──▶ bytes ──splitLines──▶ lines ──joinLines──▶ headers

The reader knows nothing of how a manifest was written. It cuts the bytes at the ends of lines, puts a
line that starts with a space behind the line before, and only then looks at characters. So the name
and the value of a header are found whatever their lengths in bytes are, and wherever a space of their
own comes to stand at the start of a line: just one space is taken away there.

`fold_eq` says what folding does: the parts put together are the text, and the bytes of each part,
with what stands in front of it, fit the line. From this the lines of a header are known
(`header_eq`), and a whole manifest is read back (`render_lossless`).
-/

namespace Stubwright.Archive.Manifest

open Text (utf8 utf8Chars ofUtf8? utf8_eq utf8_ofList ofUtf8?_utf8 utf8Chars_append utf8Chars_cons
  utf8Chars_nil length_utf8Chars_cons not_mem_utf8Chars)

/-! ## Reading -/

/-- The lines of a text, each ended by carriage return and line feed, and what follows the last of
them. -/
def splitLines : Bytes → List Bytes
  | [] => [[]]
  | [b] => [[b]]
  | b :: b' :: rest =>
    if b = 13 ∧ b' = 10 then [] :: splitLines rest
    else (splitLines (b' :: rest)).modifyHead (b :: ·)

/-- What a line adds to the line before it, if it starts with a space. -/
def continuation? : Bytes → Option Bytes
  | [] => none
  | b :: more => if b = 32 then some more else none

/-- A line and those that follow it, where continuations are put together with what they continue. -/
def joinLines (line : Bytes) : List Bytes → List Bytes
  | [] => [line]
  | next :: rest =>
    match continuation? next with
    | some more => joinLines (line ++ more) rest
    | none => line :: joinLines next rest

/-- The name and the value of a header. -/
def readHeader? (line : Bytes) : Option (String × String) := do
  let cs := (← ofUtf8? line).toList
  match cs.dropWhile (· ≠ ':') with
  | ':' :: ' ' :: value => some (String.ofList (cs.takeWhile (· ≠ ':')), String.ofList value)
  | _ => none

/-- The headers in front of the empty line, behind which there must be nothing. -/
def readHeaders? : List Bytes → Option (List (String × String))
  | [] => none
  | line :: rest =>
    if line.isEmpty then if rest == [[]] then some [] else none
    else do
      let header ← readHeader? line
      let headers ← readHeaders? rest
      some (header :: headers)

/-- The headers that lines make up. -/
def readLines? : List Bytes → Option (List (String × String))
  | [] => none
  | line :: rest => readHeaders? (joinLines line rest)

/-- The headers of a manifest. -/
def read? (bytes : Bytes) : Option (List (String × String)) := readLines? (splitLines bytes)

/-! ## Lines -/

/-- The text of lines, each with its end. -/
def ended (lines : List (List Char)) : List Char := lines.flatMap (· ++ lineEnd)

theorem splitLines_cons {b : UInt8} (h : b ≠ 13) (rest : Bytes) :
    splitLines (b :: rest) = (splitLines rest).modifyHead (b :: ·) := by
  cases rest with
  | nil => rfl
  | cons b' rest => rw [splitLines, if_neg fun ⟨heq, _⟩ => h heq]

theorem splitLines_append {line : Bytes} (h : (13 : UInt8) ∉ line) (rest : Bytes) :
    splitLines (line ++ 13 :: 10 :: rest) = line :: splitLines rest := by
  induction line with
  | nil => rw [List.nil_append, splitLines, if_pos ⟨rfl, rfl⟩]
  | cons b line ih =>
    rw [List.mem_cons, not_or] at h
    rw [List.cons_append, splitLines_cons (Ne.symm h.1), ih h.2, List.modifyHead_cons]

theorem utf8Chars_lineEnd : utf8Chars lineEnd = [13, 10] := by decide

/-- **Lines are told apart by their ends.** -/
theorem splitLines_ended {lines : List (List Char)} (h : ∀ line ∈ lines, '\r' ∉ line) :
    splitLines (utf8Chars (ended lines)) = lines.map utf8Chars ++ [[]] := by
  induction lines with
  | nil => rfl
  | cons line lines ih =>
    rw [List.forall_mem_cons] at h
    have hbytes : utf8Chars (ended (line :: lines))
        = utf8Chars line ++ 13 :: 10 :: utf8Chars (ended lines) := by
      rw [ended, List.flatMap_cons, utf8Chars_append, utf8Chars_append, utf8Chars_lineEnd,
        List.append_assoc]
      rfl
    rw [hbytes, splitLines_append (not_mem_utf8Chars (c := '\r') (by decide) h.1), ih h.2]
    rfl

/-! ## Folding -/

/-- The bytes that characters take. -/
def width (cs : List Char) : Nat := (utf8Chars cs).length

theorem width_cons (c : Char) (cs : List Char) : width (c :: cs) = c.utf8Size + width cs :=
  length_utf8Chars_cons c cs

/-- What goes on in a line of its own. -/
def continued (part : List Char) : List Char := lineEnd ++ ' ' :: part

/-- **Folding cuts a text into parts that fit their lines**, the first one behind what stands in the
line already, and the others behind a space. -/
theorem fold_eq {start : Nat} (hstart : start ≤ lineWidth) (cs : List Char) :
    ∃ (first : List Char) (parts : List (List Char)), cs = first ++ parts.flatten ∧
      fold start cs = first ++ parts.flatMap continued ∧
      start + width first ≤ lineWidth ∧ ∀ part ∈ parts, 1 + width part ≤ lineWidth := by
  induction cs generalizing start with
  | nil => exact ⟨[], [], rfl, rfl, hstart, List.forall_mem_nil _⟩
  | cons c cs ih =>
    have hsize : c.utf8Size ≤ 4 := c.utf8Size_le_four
    rw [fold]
    split
    · -- a new line always has room for its first character
      have hroom : 1 + c.utf8Size ≤ lineWidth := by
        rw [lineWidth]
        omega
      obtain ⟨first, parts, hcs, hfold, hfirst, hparts⟩ := ih hroom
      refine ⟨[], (c :: first) :: parts, by rw [hcs]; rfl, ?_, hstart, ?_⟩
      · rw [hfold, List.flatMap_cons, continued, List.nil_append, List.append_assoc]
        rfl
      · refine List.forall_mem_cons.mpr ⟨?_, hparts⟩
        rw [width_cons]
        omega
    · next hfits =>
      obtain ⟨first, parts, hcs, hfold, hfirst, hparts⟩ := ih (Nat.not_lt.mp hfits)
      refine ⟨c :: first, parts, by rw [hcs]; rfl, by rw [hfold]; rfl, ?_, hparts⟩
      rw [width_cons]
      omega

/-- The lines of a header that is cut into these parts. -/
def headerLines (first : List Char) (parts : List (List Char)) : List (List Char) :=
  first :: parts.map (' ' :: ·)

/-- Parts that are continued are lines that start with a space. -/
theorem ended_continued (first : List Char) (parts : List (List Char)) :
    first ++ parts.flatMap continued ++ lineEnd = ended (headerLines first parts) := by
  induction parts generalizing first with
  | nil => simp [ended, headerLines]
  | cons part parts ih =>
    have hrest := ih (' ' :: part)
    simp only [ended, headerLines, List.flatMap_cons, List.map_cons, continued,
      List.append_assoc] at hrest ⊢
    rw [hrest]

/-- The lines that a text which does not start with a space is folded into. -/
structure FoldedInto (cs first : List Char) (parts : List (List Char)) : Prop where
  text : cs = first ++ parts.flatten
  start : ∃ c rest, first = c :: rest ∧ c ≠ ' '
  fits : ∀ line ∈ headerLines first parts, width line ≤ lineWidth

/-- A header is written in lines into which it is folded. -/
theorem header_eq {name : String} {c : Char} {rest : List Char} (hname : name.toList = c :: rest)
    (hc : c ≠ ' ') (value : String) :
    ∃ first parts, header name value = ended (headerLines first parts) ∧
      FoldedInto (name ++ ": " ++ value).toList first parts := by
  have htext : (name ++ ": " ++ value).toList = c :: (rest ++ ": ".toList ++ value.toList) := by
    rw [String.toList_append, String.toList_append, hname]
    rfl
  have hsize : c.utf8Size ≤ 4 := c.utf8Size_le_four
  have hroom : 0 + c.utf8Size ≤ lineWidth := by
    rw [lineWidth]
    omega
  obtain ⟨first, parts, hcs, hfold, hfirst, hparts⟩ :=
    fold_eq hroom (rest ++ ": ".toList ++ value.toList)
  refine ⟨c :: first, parts, ?_, ?_, ⟨c, first, rfl, hc⟩, ?_⟩
  · rw [header, htext, fold, if_neg (Nat.not_lt.mpr hroom), hfold, ← ended_continued]
    rfl
  · rw [htext, hcs]
    rfl
  · refine List.forall_mem_cons.mpr ⟨?_, List.forall_mem_map.mpr fun part hpart => ?_⟩
    · rw [width_cons]
      omega
    · rw [width_cons]
      exact hparts part hpart

/-- No character comes in by folding but spaces. -/
theorem FoldedInto.not_mem {cs first : List Char} {parts : List (List Char)}
    (h : FoldedInto cs first parts) {c : Char} (hc : c ∉ cs) (hspace : c ≠ ' ') :
    ∀ line ∈ headerLines first parts, c ∉ line := by
  rw [h.text, List.mem_append, not_or] at hc
  refine List.forall_mem_cons.mpr ⟨hc.1, List.forall_mem_map.mpr fun part hpart hmem => ?_⟩
  rcases List.mem_cons.mp hmem with heq | hmem
  · exact hspace heq
  · exact hc.2 (List.mem_flatten_of_mem hpart hmem)

/-! ## Reading what was folded -/

theorem continuation?_space (part : List Char) :
    continuation? (utf8Chars (' ' :: part)) = some (utf8Chars part) := by
  rw [utf8Chars_cons]
  rfl

theorem continuation?_of_ne {c : Char} (h : c ≠ ' ') (cs : List Char) :
    continuation? (utf8Chars (c :: cs)) = none := by
  have hspace : (32 : UInt8) ∉ utf8Chars [c] :=
    not_mem_utf8Chars (c := ' ') (by decide) (by simpa using Ne.symm h)
  rw [utf8Chars_cons, utf8Chars_nil, List.append_nil] at hspace
  cases hbytes : String.utf8EncodeChar c with
  | nil =>
    have hlength := String.length_utf8EncodeChar c
    rw [hbytes] at hlength
    exact absurd hlength.symm (Nat.ne_of_gt c.utf8Size_pos)
  | cons b bytes =>
    rw [hbytes, List.mem_cons, not_or] at hspace
    rw [utf8Chars_cons, hbytes, List.cons_append, continuation?, if_neg (Ne.symm hspace.1)]

/-- **What was folded is put together again**, up to the next line that starts otherwise. -/
theorem joinLines_folded (first : List Char) (parts : List (List Char)) {next : Bytes}
    (hnext : continuation? next = none) (rest : List Bytes) :
    joinLines (utf8Chars first) ((parts.map (' ' :: ·)).map utf8Chars ++ next :: rest)
      = utf8Chars (first ++ parts.flatten) :: joinLines next rest := by
  induction parts generalizing first with
  | nil =>
    rw [List.flatten_nil, List.append_nil, List.map_nil, List.map_nil, List.nil_append, joinLines,
      hnext]
  | cons part parts ih =>
    rw [List.map_cons, List.map_cons, List.cons_append, joinLines, continuation?_space]
    dsimp only
    rw [← utf8Chars_append, ih, List.flatten_cons, List.append_assoc]

theorem readHeader?_utf8 {name : String} (h : ':' ∉ name.toList) (value : String) :
    readHeader? (utf8 (name ++ ": " ++ value)) = some (name, value) := by
  have hpass : ∀ c ∈ name.toList, decide (c ≠ ':') = true := by
    intro c hc
    exact decide_eq_true (ne_of_mem_of_not_mem hc h)
  have htext : (name ++ ": " ++ value).toList = name.toList ++ (':' :: ' ' :: value.toList) := by
    rw [String.toList_append, String.toList_append, List.append_assoc]
    rfl
  have hbehind : (name ++ ": " ++ value).toList.dropWhile (· ≠ ':') = ':' :: ' ' :: value.toList := by
    rw [htext, List.dropWhile_append_of_pos hpass, List.dropWhile_cons_of_neg (by simp)]
  have hbefore : (name ++ ": " ++ value).toList.takeWhile (· ≠ ':') = name.toList := by
    rw [htext, List.takeWhile_append_of_pos hpass, List.takeWhile_cons_of_neg (by simp),
      List.append_nil]
  unfold readHeader?
  rw [ofUtf8?_utf8]
  simp only [Option.bind_eq_bind, Option.bind_some]
  rw [hbehind, hbefore]
  simp

/-- The bytes of a header are read as that header. -/
theorem readHeaders?_cons {name : String} (h : ':' ∉ name.toList) (value : String)
    (rest : List Bytes) :
    readHeaders? (utf8 (name ++ ": " ++ value) :: rest)
      = (readHeaders? rest).map ((name, value) :: ·) := by
  have hne : (utf8 (name ++ ": " ++ value)).isEmpty = false := by
    rw [utf8_eq]
    simp
  rw [readHeaders?, hne, readHeader?_utf8 h]
  cases readHeaders? rest <;> rfl

/-! ## Manifests -/

/-- The lines of a manifest: two headers, and the empty line that ends it. -/
structure ManifestLines (manifest : Manifest) (lines : List (List Char)) : Prop where
  text : manifest.render.toList = ended lines
  headers : ∃ first parts first' parts',
    lines = headerLines first parts ++ (headerLines first' parts' ++ [[]]) ∧
      FoldedInto ("Manifest-Version" ++ ": " ++ "1.0").toList first parts ∧
      FoldedInto ("Main-Class" ++ ": " ++ manifest.mainClass).toList first' parts'

theorem exists_manifestLines (manifest : Manifest) : ∃ lines, ManifestLines manifest lines := by
  have hversionName : "Manifest-Version".toList = 'M' :: "anifest-Version".toList := rfl
  have hclassName : "Main-Class".toList = 'M' :: "ain-Class".toList := rfl
  obtain ⟨first, parts, hversion, hfolded⟩ := header_eq hversionName (by decide) "1.0"
  obtain ⟨first', parts', hclass, hfolded'⟩ :=
    header_eq hclassName (by decide) manifest.mainClass
  refine ⟨_, ?_, first, parts, first', parts', rfl, hfolded, hfolded'⟩
  rw [render, String.toList_ofList, hversion, hclass]
  simp [ended]

namespace ManifestLines

variable {manifest : Manifest} {lines : List (List Char)}

/-- What is true of the lines of both headers and of the empty line. -/
theorem forall_mem (h : ManifestLines manifest lines) {P : List Char → Prop} (hempty : P [])
    (hheader : ∀ name value first parts, (name, value) ∈ [("Manifest-Version", "1.0"),
        ("Main-Class", manifest.mainClass)] →
      FoldedInto (name ++ ": " ++ value).toList first parts →
      ∀ line ∈ headerLines first parts, P line) : ∀ line ∈ lines, P line := by
  obtain ⟨first, parts, first', parts', rfl, hversion, hclass⟩ := h.headers
  exact List.forall_mem_append.mpr ⟨hheader _ _ _ _ (by simp) hversion,
    List.forall_mem_append.mpr ⟨hheader _ _ _ _ (by simp) hclass,
      List.forall_mem_singleton.mpr hempty⟩⟩

theorem fits (h : ManifestLines manifest lines) : ∀ line ∈ lines, width line ≤ lineWidth :=
  h.forall_mem (Nat.zero_le _) fun _ _ _ _ _ hfolded => hfolded.fits

theorem splitLines_eq (h : ManifestLines manifest lines)
    (hreturn : '\r' ∉ manifest.mainClass.toList) :
    splitLines (utf8 manifest.render) = lines.map utf8Chars ++ [[]] := by
  rw [utf8_eq, h.text]
  refine splitLines_ended (h.forall_mem List.not_mem_nil fun name value _ _ hmem hfolded =>
    hfolded.not_mem ?_ (by decide))
  rw [String.toList_append, List.mem_append, not_or]
  simp only [List.mem_cons, List.not_mem_nil, or_false, Prod.mk.injEq] at hmem
  rcases hmem with ⟨rfl, rfl⟩ | ⟨rfl, rfl⟩
  · decide
  · exact ⟨by decide, hreturn⟩

/-- **The headers are read from their lines.** -/
theorem readLines?_eq (h : ManifestLines manifest lines) :
    readLines? (lines.map utf8Chars ++ [[]])
      = some [("Manifest-Version", "1.0"), ("Main-Class", manifest.mainClass)] := by
  obtain ⟨first, parts, first', parts', rfl, hversion, hclass⟩ := h.headers
  obtain ⟨c, rest, hstart, hc⟩ := hclass.start
  have hnext : continuation? (utf8Chars first') = none := by
    rw [hstart]
    exact continuation?_of_ne hc rest
  rw [List.map_append, List.map_append, headerLines, headerLines, List.map_cons, List.map_cons]
  simp only [List.cons_append, List.append_assoc]
  rw [readLines?, joinLines_folded first parts hnext, ← hversion.text]
  show readHeaders? (_ :: joinLines _ (_ ++ [] :: [[]])) = _
  rw [joinLines_folded first' parts' rfl, ← hclass.text, ← utf8_eq, ← utf8_eq,
    readHeaders?_cons (by decide), readHeaders?_cons (by decide)]
  rfl

end ManifestLines

/-- What the bytes of a manifest tell. -/
structure Lossless (manifest : Manifest) : Prop where
  /-- No line is too long. -/
  width : ∀ line ∈ splitLines (utf8 manifest.render), line.length ≤ 72
  /-- Each line is a text of its own, so that no character is split. -/
  whole : ∀ line ∈ splitLines (utf8 manifest.render), ∃ text, line = utf8 text
  /-- The two headers are read, up to the empty line that ends the manifest. -/
  headers : read? (utf8 manifest.render)
    = some [("Manifest-Version", "1.0"), ("Main-Class", manifest.mainClass)]

/-- **A manifest is folded within the width and read back without loss**, whatever the name of the
class is, as long as it does not end a line by itself. -/
theorem render_lossless {manifest : Manifest} (h : '\r' ∉ manifest.mainClass.toList) :
    Lossless manifest := by
  obtain ⟨lines, hlines⟩ := exists_manifestLines manifest
  have hsplit := hlines.splitLines_eq h
  have hlast : utf8Chars [] = [] := rfl
  refine ⟨?_, ?_, ?_⟩
  · rw [hsplit]
    exact List.forall_mem_append.mpr ⟨List.forall_mem_map.mpr hlines.fits, by simp⟩
  · rw [hsplit, ← hlast, ← List.map_singleton, ← List.map_append]
    exact List.forall_mem_map.mpr fun line _ => ⟨String.ofList line, (utf8_ofList line).symm⟩
  · rw [read?, hsplit, hlines.readLines?_eq]

/-- A name over three lines: the second one starts with a space of the name, and the third one with
letters of two bytes. -/
def longName : Manifest :=
  ⟨"pakete.der.Werkzeuge.fuer.alles.Moegliche.auf.einmal.Anfang" ++
    "  klasse" ++ String.ofList (List.replicate 40 'ä') ++ "$Ende"⟩

theorem render_lossless_longName : '\r' ∉ longName.mainClass.toList ∧ Lossless longName := by
  have h : '\r' ∉ longName.mainClass.toList := by decide +kernel
  exact ⟨h, render_lossless h⟩

end Stubwright.Archive.Manifest

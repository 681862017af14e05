import Mathlib.Data.List.DropRight
import Stubwright.Markup.Scan
import Stubwright.Proofs.Spelling

/-!
# The text of a tag

    attributes ──TagText──▶ text after the tag's name ──rawAttributes──▶ attributes

`TagText` relates the attributes of a tag to all texts that give them: with any blanks, any quotes,
and with malformed attributes in between. A malformed attribute is one that has no value, has a
value without quotes, or has a key that stood there before; the relation keeps the keys of these.
Main statements:

* `rawAttributes_eq` — the well-formed attributes are read, in order, and the malformed ones are
  read as if they were absent.
* `splitTag_tag`, `ofContent_eq` — such a text is found again in the document: the tag ends where it
  ends, and its name is told from the rest.
-/

namespace Stubwright.Markup

/-! ## Blanks and names -/

/-- Nothing but blanks. -/
def Blanks (cs : List Char) : Prop := ∀ c ∈ cs, isSpace c = true

/-- The characters that no name has, besides blanks. -/
def reserved : List Char := ['<', '>', '/', '=', '"', '\'', '!', '?']

/-- The characters of names. -/
def isNamePart (c : Char) : Bool := !isSpace c && !reserved.contains c

/-- The name of an element or of an attribute. -/
structure IsName (cs : List Char) : Prop where
  nonempty : cs ≠ []
  parts : ∀ c ∈ cs, isNamePart c = true

/-- The characters that stand around a value. -/
def IsQuote (q : Char) : Prop := q = '"' ∨ q = '\''

instance (cs : List Char) : Decidable (Blanks cs) :=
  decidable_of_iff (cs.all isSpace = true) List.all_eq_true

instance (cs : List Char) : Decidable (IsName cs) :=
  decidable_of_iff (cs ≠ [] ∧ cs.all isNamePart = true)
    ⟨fun h => ⟨h.1, List.all_eq_true.mp h.2⟩, fun h => ⟨h.nonempty, List.all_eq_true.mpr h.parts⟩⟩

instance (q : Char) : Decidable (IsQuote q) := inferInstanceAs (Decidable (_ ∨ _))

theorem isSpace_of_isNamePart {c : Char} (h : isNamePart c = true) : isSpace c = false := by
  simp only [isNamePart, Bool.and_eq_true, Bool.not_eq_true'] at h
  exact h.1

theorem ne_of_isNamePart {c d : Char} (h : isNamePart c = true)
    (hd : d ∈ reserved) : c ≠ d := by
  rintro rfl
  simp only [isNamePart, Bool.and_eq_true, Bool.not_eq_true'] at h
  rw [List.contains_eq_mem, decide_eq_false_iff_not] at h
  exact h.2 hd

theorem isKeyPart_of_isNamePart {c : Char} (h : isNamePart c = true) : isKeyPart c = true := by
  have hequals : c ≠ '=' := ne_of_isNamePart h (by decide)
  simp [isKeyPart, isSpace_of_isNamePart h, hequals]

theorem skipSpace_blanks {blanks : List Char} (h : Blanks blanks) (cs : List Char) :
    skipSpace (blanks ++ cs) = skipSpace cs :=
  List.dropWhile_append_of_pos h

theorem skipSpace_cons {c : Char} (h : isSpace c = false) (cs : List Char) :
    skipSpace (c :: cs) = c :: cs :=
  List.dropWhile_cons_of_neg (by simp [h])

/-- What stands in front of a value: blanks, the key, the equals sign. -/
def Assigns (key start : List Char) : Prop :=
  ∃ before after, Blanks before ∧ before ≠ [] ∧ IsName key ∧ Blanks after ∧
    start = before ++ key ++ after ++ ['=']

/-! ## Attributes as they are written -/

/-- `TagText seen attributes lost text`: behind attributes with the keys `seen`, the text gives
`attributes`, while the malformed ones have the keys `lost`. -/
inductive TagText :
    List (List Char) → List (List Char × List Char) → List (List Char) → List Char → Prop
  | done {seen : List (List Char)} {blanks : List Char} : Blanks blanks → TagText seen [] [] blanks
  | quoted {seen attributes lost text key start blanks q raw} :
      Assigns key start → key ∉ seen → Blanks blanks → IsQuote q → q ∉ raw →
      TagText (key :: seen) attributes lost text →
      TagText seen ((key, raw) :: attributes) lost (start ++ blanks ++ q :: raw ++ q :: text)
  | valueless {seen attributes lost text blanks key} :
      Blanks blanks → blanks ≠ [] → IsName key → TagText seen attributes lost text →
      TagText seen attributes (key :: lost) (blanks ++ key ++ text)
  | unquoted {seen attributes lost text key start blanks word} :
      Assigns key start → key ∉ seen → Blanks blanks → IsName word →
      TagText (key :: seen) attributes lost text →
      TagText seen attributes (key :: lost) (start ++ blanks ++ word ++ text)
  | repeated {seen attributes lost text key start q raw} :
      Assigns key start → key ∈ seen → IsQuote q → q ∉ raw → (∀ c ∈ raw, isSpace c = false) →
      TagText seen attributes lost text →
      TagText seen attributes (key :: lost) (start ++ q :: raw ++ q :: text)

/-- The text of a tag whose attributes are all well formed. -/
abbrev WellFormedText (attributes : List (List Char × List Char)) (text : List Char) : Prop :=
  TagText [] attributes [] text

variable {seen lost : List (List Char)} {attributes : List (List Char × List Char)}
  {key start blanks text raw cs : List Char} {q : Char}

theorem Assigns.start_blank (h : Assigns key start) :
    ∃ c rest, start = c :: rest ∧ isSpace c = true := by
  obtain ⟨before, after, hbefore, hne, -, -, rfl⟩ := h
  obtain ⟨c, before, rfl⟩ := List.exists_cons_of_ne_nil hne
  exact ⟨c, before ++ key ++ after ++ ['='], by simp, hbefore c List.mem_cons_self⟩

/-- The text is empty or goes on with a blank. -/
theorem TagText.head (h : TagText seen attributes lost text) :
    ∀ c rest, text = c :: rest → isSpace c = true := by
  have hstart : ∀ {key start rest : List Char}, Assigns key start →
      ∀ c rest', start ++ rest = c :: rest' → isSpace c = true := by
    intro key start rest hassign c rest' heq
    obtain ⟨d, start, rfl, hd⟩ := hassign.start_blank
    cases heq
    exact hd
  intro c rest heq
  cases h with
  | done hblanks => exact hblanks c (heq ▸ List.mem_cons_self)
  | quoted hassign =>
    simp only [List.append_assoc] at heq
    exact hstart hassign c rest heq
  | valueless hblanks hne =>
    obtain ⟨d, blanks, rfl⟩ := List.exists_cons_of_ne_nil hne
    cases heq
    exact hblanks c List.mem_cons_self
  | unquoted hassign =>
    simp only [List.append_assoc] at heq
    exact hstart hassign c rest heq
  | repeated hassign =>
    simp only [List.append_assoc] at heq
    exact hstart hassign c rest heq

theorem skipSpace_name (hblanks : Blanks blanks) (hkey : IsName key) :
    ∃ c rest, isNamePart c = true ∧ ∀ cs, skipSpace (blanks ++ key ++ cs) = c :: (rest ++ cs) := by
  obtain ⟨c, rest, rfl⟩ := List.exists_cons_of_ne_nil hkey.nonempty
  have hc : isNamePart c = true := hkey.parts c List.mem_cons_self
  refine ⟨c, rest, hc, ?_⟩
  intro cs
  rw [List.append_assoc, skipSpace_blanks hblanks, List.cons_append,
    skipSpace_cons (isSpace_of_isNamePart hc)]

/-- After its blanks the text ends or goes on with a key. -/
theorem TagText.next (h : TagText seen attributes lost text) :
    ∀ c rest, skipSpace text = c :: rest → c ≠ '=' := by
  have hname : ∀ {key blanks : List Char}, Blanks blanks → IsName key → ∀ cs c rest,
      skipSpace (blanks ++ key ++ cs) = c :: rest → c ≠ '=' := by
    intro key blanks hblanks hkey cs c rest heq
    obtain ⟨d, rest', hd, hskip⟩ := skipSpace_name hblanks hkey
    rw [hskip] at heq
    cases heq
    exact ne_of_isNamePart hd (by decide)
  have hstart : ∀ {key start : List Char}, Assigns key start → ∀ cs c rest,
      skipSpace (start ++ cs) = c :: rest → c ≠ '=' := by
    rintro key start ⟨before, after, hbefore, -, hkey, -, rfl⟩ cs
    simpa only [List.append_assoc] using hname hbefore hkey (after ++ ['='] ++ cs)
  intro c rest heq
  cases h with
  | done hblanks =>
    rw [← List.append_nil text, skipSpace_blanks hblanks] at heq
    cases heq
  | quoted hassign =>
    simp only [List.append_assoc] at heq
    exact hstart hassign _ c rest heq
  | valueless hblanks hne hkey => exact hname hblanks hkey _ c rest heq
  | unquoted hassign =>
    simp only [List.append_assoc] at heq
    exact hstart hassign _ c rest heq
  | repeated hassign =>
    simp only [List.append_assoc] at heq
    exact hstart hassign _ c rest heq

theorem skipSpace_skipSpace {c : Char} {rest : List Char} (h : skipSpace cs = c :: rest) :
    skipSpace (c :: rest) = c :: rest := by
  rw [← h]
  exact List.dropWhile_idempotent isSpace cs

/-! ## Reading the attributes -/

theorem rawAttributes_nil (h : skipSpace cs = []) : rawAttributes seen cs = [] := by
  rw [rawAttributes]
  split
  · rfl
  · next hs => rw [h] at hs; cases hs

/-- What the text after a key and its equals sign gives. -/
def afterEquals (seen : List (List Char)) (key cs : List Char) : List (List Char × List Char) :=
  if seen.contains key then rawAttributes seen (cs.dropWhile (!isSpace ·))
  else
    match quotedValue (skipSpace cs) with
    | none => []
    | some (none, after) => rawAttributes (key :: seen) after
    | some (some value, after) => (key, value) :: rawAttributes (key :: seen) after

/-- What the text after a key gives. -/
def afterKey (seen : List (List Char)) (key cs : List Char) : List (List Char × List Char) :=
  match skipSpace cs with
  | [] => []
  | d :: rest => if d != '=' then rawAttributes seen (d :: rest) else afterEquals seen key rest

theorem rawAttributes_cons {c : Char} {rest : List Char} (h : skipSpace cs = c :: rest) :
    rawAttributes seen cs
      = afterKey seen (c :: rest.takeWhile isKeyPart) (rest.dropWhile isKeyPart) := by
  rw [rawAttributes]
  split
  · next hs => rw [h] at hs; cases hs
  · next c' rest' hs =>
    rw [h] at hs
    cases hs
    unfold afterKey
    dsimp only
    split
    · next he => simp only [he]
    · next d after he =>
      simp only [he]
      unfold afterEquals
      split
      · rfl
      · split
        · rfl
        · split
          all_goals
            next hq => simp only [hq]

theorem rawAttributes_congr {ds : List Char} (h : skipSpace cs = skipSpace ds) :
    rawAttributes seen cs = rawAttributes seen ds := by
  cases hs : skipSpace ds with
  | nil => rw [rawAttributes_nil hs, rawAttributes_nil (h.trans hs)]
  | cons c rest => rw [rawAttributes_cons hs, rawAttributes_cons (h.trans hs)]

/-- A key ends at the first blank or equals sign. -/
theorem rawAttributes_key (hblanks : Blanks blanks) (hkey : IsName key)
    (hend : ∀ c rest, cs = c :: rest → isKeyPart c = false) :
    rawAttributes seen (blanks ++ key ++ cs) = afterKey seen key cs := by
  obtain ⟨c, rest, rfl⟩ := List.exists_cons_of_ne_nil hkey.nonempty
  have hc : isNamePart c = true := hkey.parts c List.mem_cons_self
  have hrest : ∀ d ∈ rest, isKeyPart d = true := by
    intro d hd
    exact isKeyPart_of_isNamePart (hkey.parts d (List.mem_cons_of_mem c hd))
  have hskip : skipSpace (blanks ++ c :: rest ++ cs) = c :: (rest ++ cs) := by
    rw [List.append_assoc, skipSpace_blanks hblanks, List.cons_append,
      skipSpace_cons (isSpace_of_isNamePart hc)]
  rw [rawAttributes_cons hskip, List.takeWhile_append_of_pos hrest,
    List.dropWhile_append_of_pos hrest]
  cases cs with
  | nil => rw [List.takeWhile_nil, List.dropWhile_nil, List.append_nil]
  | cons d cs =>
    have hd : isKeyPart d = false := hend d cs rfl
    rw [List.takeWhile_cons_of_neg (by simp [hd]), List.dropWhile_cons_of_neg (by simp [hd]),
      List.append_nil]

theorem rawAttributes_assigns (h : Assigns key start) (cs : List Char) :
    rawAttributes seen (start ++ cs) = afterEquals seen key cs := by
  obtain ⟨before, after, hbefore, -, hkey, hafter, rfl⟩ := h
  have hskip : skipSpace (after ++ '=' :: cs) = '=' :: cs := by
    rw [skipSpace_blanks hafter, skipSpace_cons (by decide)]
  -- the key ends at the blanks in front of the equals sign, or at the sign itself
  have hend : ∀ c rest, after ++ '=' :: cs = c :: rest → isKeyPart c = false := by
    intro c rest heq
    cases after with
    | nil =>
      cases heq
      decide
    | cons d after =>
      cases heq
      simp [isKeyPart, hafter c List.mem_cons_self]
  rw [List.append_assoc, List.append_assoc, List.singleton_append,
    rawAttributes_key hbefore hkey hend, afterKey, hskip]
  rfl

theorem quotedValue_quoted (hq : IsQuote q) (hraw : q ∉ raw) (cs : List Char) :
    quotedValue (q :: raw ++ q :: cs) = some (some raw, cs) := by
  have hall : ∀ c ∈ raw, (c != q) = true := by
    intro c hc
    rw [bne_iff_ne]
    rintro rfl
    exact hraw hc
  have hquote : (q == '"' || q == '\'') = true := by
    rcases hq with rfl | rfl <;> decide
  rw [List.cons_append, quotedValue, if_pos hquote, List.dropWhile_append_of_pos hall,
    List.takeWhile_append_of_pos hall, List.dropWhile_cons_of_neg (by simp),
    List.takeWhile_cons_of_neg (by simp), List.append_nil]

/-- A text that starts with a blank starts with no word. -/
theorem dropWhile_eq_self (h : ∀ c rest, cs = c :: rest → isSpace c = true) :
    cs.dropWhile (!isSpace ·) = cs := by
  cases cs with
  | nil => rfl
  | cons c rest => exact List.dropWhile_cons_of_neg (by simp [h c rest rfl])

theorem quotedValue_word {word : List Char} (hword : IsName word)
    (hend : ∀ c rest, cs = c :: rest → isSpace c = true) :
    quotedValue (word ++ cs) = some (none, cs) := by
  obtain ⟨c, rest, rfl⟩ := List.exists_cons_of_ne_nil hword.nonempty
  have hc : isNamePart c = true := hword.parts c List.mem_cons_self
  have hquote : (c == '"' || c == '\'') = false := by
    have h1 : c ≠ '"' := ne_of_isNamePart hc (by decide)
    have h2 : c ≠ '\'' := ne_of_isNamePart hc (by decide)
    simp [h1, h2]
  have hall : ∀ d ∈ c :: rest, (!isSpace d) = true := by
    intro d hd
    simp [isSpace_of_isNamePart (hword.parts d hd)]
  rw [List.cons_append, quotedValue, hquote]
  simp only [Bool.false_eq_true, if_false]
  rw [← List.cons_append, List.dropWhile_append_of_pos hall, dropWhile_eq_self hend]

theorem isSpace_of_isQuote (h : IsQuote q) : isSpace q = false := by
  rcases h with rfl | rfl <;> decide

theorem rawAttributes_quoted (hassign : Assigns key start) (hnew : key ∉ seen)
    (hblanks : Blanks blanks) (hq : IsQuote q) (hraw : q ∉ raw) (text : List Char) :
    rawAttributes seen (start ++ blanks ++ q :: raw ++ q :: text)
      = (key, raw) :: rawAttributes (key :: seen) text := by
  simp only [List.append_assoc]
  rw [rawAttributes_assigns hassign, afterEquals, if_neg (by simpa using hnew),
    skipSpace_blanks hblanks, List.cons_append, skipSpace_cons (isSpace_of_isQuote hq),
    ← List.cons_append, quotedValue_quoted hq hraw]

theorem rawAttributes_valueless (hblanks : Blanks blanks) (hkey : IsName key)
    (htext : TagText seen attributes lost text) :
    rawAttributes seen (blanks ++ key ++ text) = rawAttributes seen text := by
  have hend : ∀ c rest, text = c :: rest → isKeyPart c = false := by
    intro c rest heq
    simp [isKeyPart, htext.head c rest heq]
  rw [rawAttributes_key hblanks hkey hend, afterKey]
  -- what follows is nothing or a key of its own
  cases hs : skipSpace text with
  | nil => exact (rawAttributes_nil hs).symm
  | cons c rest =>
    have hequals : (c != '=') = true := bne_iff_ne.mpr (htext.next c rest hs)
    dsimp only
    rw [if_pos hequals]
    apply rawAttributes_congr
    rw [hs]
    exact skipSpace_skipSpace hs

/-- The key is taken, although the attribute is dropped. -/
theorem rawAttributes_unquoted {word : List Char} (hassign : Assigns key start) (hnew : key ∉ seen)
    (hblanks : Blanks blanks) (hword : IsName word)
    (hend : ∀ c rest, text = c :: rest → isSpace c = true) :
    rawAttributes seen (start ++ blanks ++ word ++ text) = rawAttributes (key :: seen) text := by
  obtain ⟨c, rest, rfl⟩ := List.exists_cons_of_ne_nil hword.nonempty
  have hc : isSpace c = false := isSpace_of_isNamePart (hword.parts c List.mem_cons_self)
  simp only [List.append_assoc]
  rw [rawAttributes_assigns hassign, afterEquals, if_neg (by simpa using hnew),
    skipSpace_blanks hblanks, List.cons_append, skipSpace_cons hc, ← List.cons_append,
    quotedValue_word hword hend]

/-- What is skipped goes up to the next blank, which is behind the value and its quotes. -/
theorem rawAttributes_repeated (hassign : Assigns key start) (hold : key ∈ seen) (hq : IsQuote q)
    (hspace : ∀ c ∈ raw, isSpace c = false)
    (hend : ∀ c rest, text = c :: rest → isSpace c = true) :
    rawAttributes seen (start ++ q :: raw ++ q :: text) = rawAttributes seen text := by
  have hall : ∀ c ∈ q :: raw ++ [q], (!isSpace c) = true := by
    intro c hc
    simp only [List.cons_append, List.mem_cons, List.mem_append, List.not_mem_nil, or_false] at hc
    rcases hc with rfl | hc | rfl
    · simp [isSpace_of_isQuote hq]
    · simp [hspace c hc]
    · simp [isSpace_of_isQuote hq]
  have hsplit : start ++ q :: raw ++ q :: text = start ++ (q :: raw ++ [q] ++ text) := by simp
  rw [hsplit, rawAttributes_assigns hassign, afterEquals, if_pos (by simpa using hold),
    List.dropWhile_append_of_pos hall, dropWhile_eq_self hend]

/-- **The well-formed attributes are read, in order; malformed ones are read as absent.** -/
theorem rawAttributes_eq (h : TagText seen attributes lost text) :
    rawAttributes seen text = attributes := by
  induction h with
  | @done seen blanks hblanks =>
    apply rawAttributes_nil
    rw [← List.append_nil blanks, skipSpace_blanks hblanks]
    rfl
  | quoted hassign hnew hblanks hq hraw _ ih =>
    rw [rawAttributes_quoted hassign hnew hblanks hq hraw, ih]
  | valueless hblanks _ hkey htext ih => rw [rawAttributes_valueless hblanks hkey htext, ih]
  | unquoted hassign hnew hblanks hword htext ih =>
    rw [rawAttributes_unquoted hassign hnew hblanks hword htext.head, ih]
  | repeated hassign hold hq _ hspace htext ih =>
    rw [rawAttributes_repeated hassign hold hq hspace htext.head, ih]

/-! ## The plain way to write attributes -/

/-- One blank in front of every attribute, and double quotes around every value. -/
def plainText (attributes : List (List Char × List Char)) : List Char :=
  attributes.flatMap fun a => ' ' :: (a.1 ++ '=' :: '"' :: (a.2 ++ ['"']))

theorem plainText_tagText (h : ∀ a ∈ attributes, IsName a.1 ∧ '"' ∉ a.2)
    (hdistinct : (attributes.map (·.1)).Nodup) (hnew : ∀ a ∈ attributes, a.1 ∉ seen) :
    TagText seen attributes [] (plainText attributes) := by
  induction attributes generalizing seen with
  | nil => exact .done (List.forall_mem_nil _)
  | cons a attributes ih =>
    rw [List.forall_mem_cons] at h hnew
    rw [List.map_cons, List.nodup_cons] at hdistinct
    have hblanks : Blanks [] := List.forall_mem_nil _
    have hassign : Assigns a.1 (' ' :: (a.1 ++ ['='])) :=
      ⟨[' '], [], by decide, by decide, h.1.1, hblanks, by simp⟩
    have hrest : ∀ b ∈ attributes, b.1 ∉ a.1 :: seen := by
      intro b hb hmem
      rcases List.mem_cons.mp hmem with heq | hmem
      · exact hdistinct.1 (heq ▸ List.mem_map_of_mem hb)
      · exact hnew.2 b hb hmem
    have htext := TagText.quoted hassign hnew.1 hblanks (.inl rfl) h.1.2 (ih h.2 hdistinct.2 hrest)
    have hsplit : ' ' :: (a.1 ++ ['=']) ++ [] ++ '"' :: a.2 ++ '"' :: plainText attributes
        = plainText (a :: attributes) := by
      simp [plainText]
    rwa [hsplit] at htext

/-- **Attributes with different names can be written plainly**, as long as no value has a double
quote. -/
theorem plainText_wellFormed (h : ∀ a ∈ attributes, IsName a.1 ∧ '"' ∉ a.2)
    (hdistinct : (attributes.map (·.1)).Nodup) : WellFormedText attributes (plainText attributes) :=
  plainText_tagText h hdistinct fun _ _ => List.not_mem_nil

/-! ## What the text is made of -/

/-- The blocks that texts of tags are made of. -/
inductive Block : List Char → Prop
  | blanks {cs : List Char} : Blanks cs → Block cs
  | name {cs : List Char} : IsName cs → Block cs
  | equals : Block ['=']
  | quoted {q : Char} {raw : List Char} : IsQuote q → q ∉ raw → Block (q :: raw ++ [q])

/-- One block after the other. -/
inductive Blocks : List Char → Prop
  | nil : Blocks []
  | cons {block cs : List Char} : Block block → Blocks cs → Blocks (block ++ cs)

theorem Blocks.assigns (h : Assigns key start) (hcs : Blocks cs) : Blocks (start ++ cs) := by
  obtain ⟨before, after, hbefore, -, hkey, hafter, rfl⟩ := h
  simp only [List.append_assoc]
  exact .cons (.blanks hbefore) (.cons (.name hkey) (.cons (.blanks hafter) (.cons .equals hcs)))

theorem TagText.blocks (h : TagText seen attributes lost text) : Blocks text := by
  induction h with
  | @done seen blanks hblanks =>
    rw [← List.append_nil blanks]
    exact .cons (.blanks hblanks) .nil
  | @quoted seen attributes lost text key start blanks q raw hassign _ hblanks hq hraw _ ih =>
    have hsplit : start ++ blanks ++ q :: raw ++ q :: text
        = start ++ (blanks ++ (q :: raw ++ [q] ++ text)) := by simp
    rw [hsplit]
    exact .assigns hassign (.cons (.blanks hblanks) (.cons (.quoted hq hraw) ih))
  | valueless hblanks _ hkey _ ih =>
    rw [List.append_assoc]
    exact .cons (.blanks hblanks) (.cons (.name hkey) ih)
  | unquoted hassign _ hblanks hword _ ih =>
    simp only [List.append_assoc]
    exact .assigns hassign (.cons (.blanks hblanks) (.cons (.name hword) ih))
  | @repeated seen attributes lost text key start q raw hassign _ hq hraw _ _ ih =>
    have hsplit : start ++ q :: raw ++ q :: text = start ++ (q :: raw ++ [q] ++ text) := by simp
    rw [hsplit]
    exact .assigns hassign (.cons (.quoted hq hraw) ih)

/-! ## Where the tag ends -/

/-- A text in which no tag ends and no quote stays open. -/
def Passes (cs : List Char) : Prop :=
  ∀ after, splitTag none (cs ++ after) = (splitTag none after).map fun p => (cs ++ p.1, p.2)

theorem passes_nil : Passes [] := by
  intro after
  rw [List.nil_append]
  cases splitTag none after <;> rfl

theorem Passes.append {ds : List Char} (hcs : Passes cs) (hds : Passes ds) : Passes (cs ++ ds) := by
  intro after
  rw [List.append_assoc, hcs, hds]
  cases splitTag none after with
  | error fault => rfl
  | ok p => simp [Except.map]

theorem passes_plain {c : Char} (hend : c ≠ '>') (hquote : ¬ IsQuote c) : Passes [c] := by
  intro after
  have hdouble : (c == '"') = false := beq_eq_false_iff_ne.mpr fun h => hquote (Or.inl h)
  have hsingle : (c == '\'') = false := beq_eq_false_iff_ne.mpr fun h => hquote (Or.inr h)
  rw [List.singleton_append, splitTag]
  simp only [Option.isNone_none, Bool.true_and, beq_iff_eq, hend, hdouble, hsingle, Bool.or_self,
    if_false, Bool.false_eq_true]
  cases splitTag none after <;> rfl

theorem passes_all (h : ∀ c ∈ cs, c ≠ '>' ∧ ¬ IsQuote c) : Passes cs := by
  induction cs with
  | nil => exact passes_nil
  | cons c cs ih =>
    rw [List.forall_mem_cons] at h
    rw [← List.singleton_append]
    exact (passes_plain h.1.1 h.1.2).append (ih h.2)

theorem passes_name (h : IsName key) : Passes key := by
  apply passes_all
  intro c hc
  have hpart : isNamePart c = true := h.parts c hc
  constructor
  · exact ne_of_isNamePart hpart (by decide)
  · rintro (rfl | rfl) <;> revert hpart <;> decide

theorem passes_blanks (h : Blanks blanks) : Passes blanks := by
  apply passes_all
  intro c hc
  have hspace : isSpace c = true := h c hc
  constructor
  · rintro rfl
    revert hspace
    decide
  · rintro (rfl | rfl) <;> revert hspace <;> decide

/-- Inside quotes nothing counts but the quote. -/
theorem splitTag_some (hraw : q ∉ raw) (after : List Char) :
    splitTag (some q) (raw ++ q :: after)
      = (splitTag none after).map fun p => (raw ++ q :: p.1, p.2) := by
  induction raw with
  | nil =>
    rw [List.nil_append, splitTag]
    simp only [Option.isNone_some, Bool.false_and, Bool.false_eq_true, if_false, beq_self_eq_true,
      if_true]
    cases splitTag none after <;> rfl
  | cons c raw ih =>
    rw [List.mem_cons, not_or] at hraw
    rw [List.cons_append, splitTag]
    simp only [Option.isNone_some, Bool.false_and, Bool.false_eq_true, if_false,
      beq_eq_false_iff_ne.mpr (Ne.symm hraw.1)]
    rw [ih hraw.2]
    cases splitTag none after <;> rfl

theorem passes_quoted (hq : IsQuote q) (hraw : q ∉ raw) : Passes (q :: raw ++ [q]) := by
  intro after
  have hend : (q == '>') = false := by rcases hq with rfl | rfl <;> decide
  have hquote : (q == '"' || q == '\'') = true := by rcases hq with rfl | rfl <;> decide
  have hsplit : q :: raw ++ [q] ++ after = q :: (raw ++ q :: after) := by simp
  rw [hsplit, splitTag]
  simp only [Option.isNone_none, Bool.true_and, hend, hquote, if_true, Bool.false_eq_true, if_false]
  rw [splitTag_some hraw]
  cases splitTag none after with
  | error fault => rfl
  | ok p => simp [Except.map]

theorem Blocks.passes (h : Blocks cs) : Passes cs := by
  induction h with
  | nil => exact passes_nil
  | cons hblock _ ih =>
    refine Passes.append ?_ ih
    cases hblock with
    | blanks hblanks => exact passes_blanks hblanks
    | name hname => exact passes_name hname
    | equals => exact passes_plain (by decide) (by decide)
    | quoted hq hraw => exact passes_quoted hq hraw

theorem splitTag_end (h : Passes cs) (after : List Char) :
    splitTag none (cs ++ '>' :: after) = .ok (cs, after) := by
  rw [h]
  simp [splitTag, Except.map]

/-! ## Name and rest -/

/-- No block ends in a slash. -/
theorem Blocks.last (h : Blocks cs) : cs.getLast? ≠ some '/' := by
  induction h with
  | nil => simp
  | @cons block cs hblock _ ih =>
    have hlast : block.getLast? ≠ some '/' := by
      intro hlast
      have hmem : '/' ∈ block := List.mem_of_getLast? hlast
      cases hblock with
      | blanks hblanks => exact absurd (hblanks _ hmem) (by decide)
      | name hname => exact absurd (hname.parts _ hmem) (by decide)
      | equals => revert hmem; decide
      | quoted hq _ =>
        rw [List.getLast?_concat] at hlast
        rcases hq with rfl | rfl <;> cases hlast
    rw [List.getLast?_append]
    cases hcs : cs.getLast? with
    | none => exact hlast
    | some c => rwa [hcs] at ih

/-- The name goes up to the first blank. -/
theorem ofContent_eq {name : List Char} (hname : IsName name)
    (h : TagText seen attributes lost text) :
    Tag.ofContent (name ++ text) = ⟨String.ofList name, text⟩ := by
  have hall : ∀ c ∈ name, (!isSpace c) = true := by
    intro c hc
    simp [isSpace_of_isNamePart (hname.parts c hc)]
  rw [Tag.ofContent, List.takeWhile_append_of_pos hall, List.dropWhile_append_of_pos hall]
  cases text with
  | nil => simp
  | cons c rest =>
    have hc : isSpace c = true := h.head c rest rfl
    rw [List.takeWhile_cons_of_neg (by simp [hc]), List.dropWhile_cons_of_neg (by simp [hc]),
      List.append_nil]

/-- The first character of a tag does not make it something else. -/
theorem markupPiece_name {name : List Char} (hname : IsName name) (cs : List Char) :
    markupPiece (name ++ cs) = (splitTag none (name ++ cs)).map
      fun p => (Piece.ofContent p.1, p.2) := by
  obtain ⟨c, rest, rfl⟩ := List.exists_cons_of_ne_nil hname.nonempty
  have hc : isNamePart c = true := hname.parts c List.mem_cons_self
  have hne : ∀ d ∈ reserved, ∀ ds, c :: (rest ++ cs) ≠ d :: ds := by
    intro d hd ds heq
    exact ne_of_isNamePart hc hd (List.cons.inj heq).1
  rw [List.cons_append, markupPiece]
  · intro heq
    cases heq
  · exact hne '!' (by decide)
  · exact hne '?' (by decide)
  · exact hne '/' (by decide)

/-- **A tag that opens an element is found with its name and its text.** -/
theorem markupPiece_opening {name : List Char} (hname : IsName name)
    (h : TagText seen attributes lost text) (after : List Char) :
    markupPiece (name ++ text ++ '>' :: after)
      = .ok (.opening ⟨String.ofList name, text⟩, after) := by
  have hblocks : Blocks (name ++ text) := .cons (.name hname) h.blocks
  have hpiece : Piece.ofContent (name ++ text) = .opening ⟨String.ofList name, text⟩ := by
    unfold Piece.ofContent
    split
    · next content heq =>
      have hlast : (name ++ text).getLast? = some '/' := by
        rw [← List.head?_reverse, heq]
        rfl
      exact absurd hlast hblocks.last
    · rw [ofContent_eq hname h]
  rw [List.append_assoc, markupPiece_name hname, ← List.append_assoc, splitTag_end hblocks.passes,
    Except.map, hpiece]

/-- **So is one that closes its element at once.** -/
theorem markupPiece_selfClosing {name : List Char} (hname : IsName name)
    (h : TagText seen attributes lost text) (after : List Char) :
    markupPiece (name ++ text ++ '/' :: '>' :: after)
      = .ok (.selfClosing ⟨String.ofList name, text⟩, after) := by
  have hblocks : Blocks (name ++ text) := .cons (.name hname) h.blocks
  have hpasses : Passes (name ++ text ++ ['/']) :=
    hblocks.passes.append (passes_plain (by decide) (by decide))
  have hpiece : Piece.ofContent (name ++ text ++ ['/'])
      = .selfClosing ⟨String.ofList name, text⟩ := by
    unfold Piece.ofContent
    rw [List.reverse_append, List.reverse_singleton, List.singleton_append]
    show Piece.selfClosing (Tag.ofContent (name ++ text).reverse.reverse) = _
    rw [List.reverse_reverse, ofContent_eq hname h]
  have hsplit : name ++ text ++ '/' :: '>' :: after = name ++ text ++ ['/'] ++ '>' :: after := by
    simp
  rw [hsplit, List.append_assoc, List.append_assoc, markupPiece_name hname, ← List.append_assoc,
    ← List.append_assoc, splitTag_end hpasses, Except.map, hpiece]

/-- **An end tag is found with its name**, whatever blanks stand behind it. -/
theorem markupPiece_closing {name : List Char} (hname : IsName name) (hblanks : Blanks blanks)
    (after : List Char) :
    markupPiece ('/' :: name ++ blanks ++ '>' :: after)
      = .ok (.closing (String.ofList name), after) := by
  have hpasses : Passes (name ++ blanks) := (passes_name hname).append (passes_blanks hblanks)
  -- the name is what is left when the blanks behind it are taken away
  have hend : endName (name ++ blanks) = String.ofList name := by
    obtain ⟨before, c, hconcat⟩ := (List.eq_nil_or_concat name).resolve_left hname.nonempty
    rw [List.concat_eq_append] at hconcat
    subst hconcat
    have hc : isSpace c = false := isSpace_of_isNamePart (hname.parts c (by simp))
    have hskip : skipSpace (before ++ [c] ++ blanks).reverse = c :: before.reverse := by
      rw [List.reverse_append, skipSpace_blanks (by simpa [Blanks] using hblanks),
        List.reverse_concat, skipSpace_cons hc]
    unfold endName
    rw [hskip, List.reverse_cons, List.reverse_reverse]
    split
    · next heq => simp at heq
    · rfl
  have hsplit : '/' :: name ++ blanks ++ '>' :: after = '/' :: (name ++ blanks ++ '>' :: after) :=
    by simp
  rw [hsplit, markupPiece, splitTag_end hpasses, ← hend]
  rfl

end Stubwright.Markup

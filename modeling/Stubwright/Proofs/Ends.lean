import Mathlib.Data.List.Infix
import Mathlib.Data.List.TakeWhile
import Stubwright.Markup.Scan

/-!
# Where markup ends

A piece of markup that is complete is read the same whatever follows it. Each scanner finds the end
that it has found before: `splitTag_append` for tags, `afterMark?_append` for what ends in a mark,
`afterDoctype?_append` for declarations, and from them `nextPiece_append` for every piece but plain
text.

A test for a word at the head of a text could go wrong here, since more text may complete the word.
It does not, because a scanner that succeeds has passed either the length of the word or a `>`, and
no word holds a `>`.
-/

namespace Stubwright.Markup

variable {cs after more : List Char}

/-! ## Characters that are passed over -/

theorem dropWhile_dropWhile_append {p : Char → Bool} (xs ys : List Char) :
    (xs.dropWhile p ++ ys).dropWhile p = (xs ++ ys).dropWhile p := by
  induction xs with
  | nil => rfl
  | cons x xs ih =>
    by_cases hx : p x = true
    · rw [List.dropWhile_cons_of_pos hx, List.cons_append, List.dropWhile_cons_of_pos hx, ih]
    · rw [List.dropWhile_cons_of_neg hx]

/-- Blanks end where they have ended, unless the text has ended in them. -/
theorem skipSpace_append {c : Char} (hc : c ∈ cs) (hspace : isSpace c = false) (more : List Char) :
    skipSpace (cs ++ more) = skipSpace cs ++ more := by
  have hne : (cs.dropWhile isSpace).isEmpty = false := by
    rw [List.isEmpty_eq_false_iff]
    intro h
    have := List.dropWhile_eq_nil_iff.mp h c hc
    rw [hspace] at this
    cases this
  rw [skipSpace, skipSpace, List.dropWhile_append, hne]
  rfl

/-! ## Where a mark ends -/

theorem isPrefixOf_append_of_le {word : List Char} (h : word.length ≤ cs.length)
    (more : List Char) : word.isPrefixOf (cs ++ more) = word.isPrefixOf cs := by
  rw [Bool.eq_iff_iff, List.isPrefixOf_iff_prefix, List.isPrefixOf_iff_prefix]
  constructor
  · intro hw
    exact List.prefix_of_prefix_length_le hw (List.prefix_append cs more) h
  · intro hw
    exact hw.trans (List.prefix_append cs more)

/-- A text that holds a character the word does not hold is not just the beginning of the word. -/
theorem isPrefixOf_append_of_mem {word : List Char} {c : Char} (hc : c ∈ cs) (hword : c ∉ word)
    (more : List Char) : word.isPrefixOf (cs ++ more) = word.isPrefixOf cs := by
  by_cases h : word.length ≤ cs.length
  · exact isPrefixOf_append_of_le h more
  · -- the text would be a part of the word, with the character in it
    rw [Bool.eq_iff_iff, List.isPrefixOf_iff_prefix, List.isPrefixOf_iff_prefix]
    constructor
    · intro hw
      have hcs : cs <+: word :=
        List.prefix_of_prefix_length_le (List.prefix_append cs more) hw (Nat.le_of_not_le h)
      exact absurd (hcs.subset hc) hword
    · intro hw
      exact hw.trans (List.prefix_append cs more)

/-- What is passed over ends in the mark. -/
theorem afterMark?_eq_some {mark : List Char} (h : afterMark? mark cs = some after) :
    ∃ before, cs = before ++ mark ++ after := by
  induction cs with
  | nil =>
    unfold afterMark? at h
    split at h
    · next hm =>
      cases h
      exact ⟨[], by simpa using hm⟩
    · cases h
  | cons c cs ih =>
    unfold afterMark? at h
    split at h
    · next hp =>
      cases h
      obtain ⟨rest, hrest⟩ := List.isPrefixOf_iff_prefix.mp hp
      refine ⟨[], ?_⟩
      rw [← hrest, List.drop_left, List.nil_append]
    · obtain ⟨before, rfl⟩ := ih h
      exact ⟨c :: before, rfl⟩

theorem mem_of_afterMark? {mark : List Char} (h : afterMark? mark cs = some after) {c : Char}
    (hc : c ∈ mark) : c ∈ cs := by
  obtain ⟨before, rfl⟩ := afterMark?_eq_some h
  simp [hc]

theorem length_mark_le {mark : List Char} (h : afterMark? mark cs = some after) :
    mark.length ≤ cs.length := by
  obtain ⟨before, rfl⟩ := afterMark?_eq_some h
  simp only [List.length_append]
  omega

theorem afterMark?_append {mark : List Char} (h : afterMark? mark cs = some after)
    (more : List Char) : afterMark? mark (cs ++ more) = some (after ++ more) := by
  induction cs with
  | nil =>
    unfold afterMark? at h
    split at h
    · next hm =>
      cases h
      obtain rfl : mark = [] := by simpa using hm
      cases more <;> simp [afterMark?]
    · cases h
  | cons c cs ih =>
    -- the mark is somewhere in the text, so that no mark ends only in what follows
    have hlength : mark.length ≤ (c :: cs).length := length_mark_le h
    unfold afterMark? at h
    rw [List.cons_append, afterMark?, ← List.cons_append, isPrefixOf_append_of_le hlength more]
    split at h
    · next hp =>
      cases h
      rw [if_pos hp, List.drop_append_of_le_length hlength]
    · next hp =>
      rw [if_neg hp]
      exact ih h

/-! ## Where a tag ends -/

theorem splitTag_eq_ok {quote? : Option Char} {content : List Char}
    (h : splitTag quote? cs = .ok (content, after)) : cs = content ++ '>' :: after := by
  induction cs generalizing quote? content with
  | nil => unfold splitTag at h; split at h <;> cases h
  | cons c cs ih =>
    simp only [splitTag] at h
    split at h
    · next hc =>
      cases h
      simp only [Bool.and_eq_true, beq_iff_eq] at hc
      rw [hc.2, List.nil_append]
    · split at h
      · cases h
      · next content' after' hs =>
        cases h
        rw [List.cons_append, ← ih hs]

theorem splitTag_append {quote? : Option Char} {content : List Char}
    (h : splitTag quote? cs = .ok (content, after)) (more : List Char) :
    splitTag quote? (cs ++ more) = .ok (content, after ++ more) := by
  induction cs generalizing quote? content with
  | nil => unfold splitTag at h; split at h <;> cases h
  | cons c cs ih =>
    simp only [splitTag] at h
    simp only [List.cons_append, splitTag]
    split at h
    · next hc =>
      cases h
      rw [if_pos hc]
    · next hc =>
      rw [if_neg hc]
      split at h
      · cases h
      · next content' after' hs =>
        cases h
        rw [ih hs]

/-! ## Where a declaration ends -/

theorem mem_of_afterInnerDeclaration? (h : afterInnerDeclaration? cs = some after) : '>' ∈ cs := by
  unfold afterInnerDeclaration? at h
  split at h
  · exact List.mem_of_mem_drop (mem_of_afterMark? h (by decide))
  · split at h
    · exact List.mem_of_mem_drop (mem_of_afterMark? h (by decide))
    · split at h
      · split at h
        · next hs =>
          rw [splitTag_eq_ok hs]
          simp
        · cases h
      · exact mem_of_afterMark? h (by decide)

theorem afterInnerDeclaration?_append (h : afterInnerDeclaration? cs = some after)
    (more : List Char) : afterInnerDeclaration? (cs ++ more) = some (after ++ more) := by
  -- every test of a word comes out as before
  have hmem : '>' ∈ cs := mem_of_afterInnerDeclaration? h
  have hword : ∀ word : String, '>' ∉ word.toList →
      word.toList.isPrefixOf (cs ++ more) = word.toList.isPrefixOf cs :=
    fun word hw => isPrefixOf_append_of_mem hmem hw more
  have hquoting : quotingDeclarations.any (·.toList.isPrefixOf (cs ++ more))
      = quotingDeclarations.any (·.toList.isPrefixOf cs) := by
    simp only [quotingDeclarations, List.any_cons, List.any_nil,
      hword "!ENTITY" (by decide), hword "!ATTLIST" (by decide), hword "!NOTATION" (by decide)]
  unfold afterInnerDeclaration? at h ⊢
  rw [hword "?" (by decide), hword "!--" (by decide), hquoting]
  split at h
  · next hp =>
    have hlength : 1 ≤ cs.length := (List.isPrefixOf_iff_prefix.mp hp).length_le
    rw [if_pos hp, List.drop_append_of_le_length hlength]
    exact afterMark?_append h more
  · next hp =>
    rw [if_neg hp]
    split at h
    · next hc =>
      have hlength : 3 ≤ cs.length := (List.isPrefixOf_iff_prefix.mp hc).length_le
      rw [if_pos hc, List.drop_append_of_le_length hlength]
      exact afterMark?_append h more
    · next hc =>
      rw [if_neg hc]
      split at h
      · next hq =>
        rw [if_pos hq]
        split at h
        · next hs =>
          cases h
          rw [splitTag_append hs more]
        · cases h
      · next hq =>
        rw [if_neg hq]
        exact afterMark?_append h more

theorem afterSubset?_append (h : afterSubset? cs = some after) (more : List Char) :
    afterSubset? (cs ++ more) = some (after ++ more) := by
  fun_induction afterSubset? cs with
  | case1 => cases h
  | case2 rest =>
    rw [List.cons_append, afterSubset?]
    exact afterMark?_append h more
  | case3 rest hn => cases h
  | case4 rest after' hs ih =>
    rw [List.cons_append, afterSubset?]
    split
    · next hn =>
      rw [afterInnerDeclaration?_append hs more] at hn
      cases hn
    · next after'' hs' =>
      rw [afterInnerDeclaration?_append hs more] at hs'
      cases hs'
      exact ih h
  | case5 c rest hclose hopen ih =>
    rw [List.cons_append, afterSubset?]
    · exact ih h
    · exact hclose
    · exact hopen

theorem afterDoctype?_append {quote? : Option Char} (h : afterDoctype? quote? cs = some after)
    (more : List Char) : afterDoctype? quote? (cs ++ more) = some (after ++ more) := by
  induction cs generalizing quote? with
  | nil => cases h
  | cons c cs ih =>
    simp only [afterDoctype?] at h
    simp only [List.cons_append, afterDoctype?]
    split at h
    · exact ih h
    · split at h
      · next hc =>
        cases h
        rw [if_pos hc]
      · next hc =>
        rw [if_neg hc]
        split at h
        · next hb =>
          rw [if_pos hb]
          exact afterSubset?_append h more
        · next hb =>
          rw [if_neg hb]
          exact ih h

theorem mem_of_afterSubset? (h : afterSubset? cs = some after) : '>' ∈ cs := by
  fun_induction afterSubset? cs with
  | case1 => cases h
  | case2 rest => exact List.mem_cons_of_mem _ (mem_of_afterMark? h (by decide))
  | case3 rest hn => cases h
  | case4 rest after' hs ih => exact List.mem_cons_of_mem _ (mem_of_afterInnerDeclaration? hs)
  | case5 c rest hclose hopen ih => exact List.mem_cons_of_mem _ (ih h)

theorem mem_of_afterDoctype? {quote? : Option Char} (h : afterDoctype? quote? cs = some after) :
    '>' ∈ cs := by
  induction cs generalizing quote? with
  | nil => cases h
  | cons c cs ih =>
    simp only [afterDoctype?] at h
    split at h
    · exact List.mem_cons_of_mem _ (ih h)
    · split at h
      · next hc =>
        rw [beq_iff_eq.mp hc]
        exact List.mem_cons_self
      · split at h
        · exact List.mem_cons_of_mem _ (mem_of_afterSubset? h)
        · exact List.mem_cons_of_mem _ (ih h)

/-! ## Where a piece of markup ends -/

theorem startsWithWord_append {word : List Char} (h : startsWithWord word cs = true)
    (more : List Char) :
    startsWithWord word (cs ++ more) = true ∧ word.length ≤ cs.length := by
  -- the first characters of the text are as many as the word has
  have hlength : word.length ≤ cs.length := by
    have := congrArg List.length (beq_iff_eq.mp h)
    simp only [List.length_map, List.length_take] at this
    omega
  refine ⟨?_, hlength⟩
  unfold startsWithWord at h ⊢
  rwa [List.take_append_of_le_length hlength]

theorem skipDoctype_append (h : skipDoctype cs = .ok after) (more : List Char) :
    skipDoctype (cs ++ more) = .ok (after ++ more) := by
  unfold skipDoctype at h
  split at h
  · next hword =>
    obtain ⟨hword', hlength⟩ := startsWithWord_append hword more
    have hlength : 8 ≤ cs.length := hlength
    unfold skipDoctype
    rw [if_pos hword', List.drop_append_of_le_length hlength]
    split at h
    · cases h
    · next after' ha =>
      rw [afterDoctype?_append ha more, skipSpace_append (mem_of_afterDoctype? ha) (by decide)]
      dsimp only
      split at h
      · cases h
      · next hname =>
        cases h
        split
        · next rest hgt =>
          -- something stands between the word and the end
          cases hs : skipSpace (cs.drop 8) with
          | nil =>
            have := List.dropWhile_eq_nil_iff.mp hs '>' (mem_of_afterDoctype? ha)
            exact absurd this (by decide)
          | cons d ds =>
            rw [hs] at hgt
            cases hgt
            exact absurd hs (hname ds)
        · rfl
  · cases h

theorem skipTo_append {opening mark : String} {fault : Fault}
    (h : skipTo opening mark fault cs = .ok after) (more : List Char) :
    skipTo opening mark fault (cs ++ more) = .ok (after ++ more) := by
  unfold skipTo at h ⊢
  split at h
  · next hp =>
    have hlength : opening.toList.length ≤ cs.length :=
      (List.isPrefixOf_iff_prefix.mp hp).length_le
    rw [isPrefixOf_append_of_le hlength, if_pos hp,
      List.drop_append_of_le_length (String.length_toList ▸ hlength)]
    split at h
    · next ha =>
      cases h
      rw [afterMark?_append ha more]
    · cases h
  · cases h

theorem skipInstruction_append (h : skipInstruction cs = .ok after) (more : List Char) :
    skipInstruction (cs ++ more) = .ok (after ++ more) := by
  unfold skipInstruction at h
  split at h
  · next after' ha =>
    unfold skipInstruction
    rw [afterMark?_append ha more, isPrefixOf_append_of_le (length_mark_le ha)]
    dsimp only
    split at h
    · cases h
    · next hp =>
      cases h
      rw [if_neg hp]
  · split at h <;> cases h

theorem skipBang_append (h : skipBang cs = .ok after) (more : List Char) :
    skipBang (cs ++ more) = .ok (after ++ more) := by
  unfold skipBang at h
  split at h
  · exact skipTo_append h more
  · exact skipTo_append h more
  · exact skipDoctype_append h more
  · exact skipDoctype_append h more
  · cases h

theorem map_eq_ok {α β : Type} {x : Except Fault α} {f : α → β} {b : β} (h : x.map f = .ok b) :
    ∃ a, x = .ok a ∧ f a = b := by
  cases x with
  | error fault => cases h
  | ok a => exact ⟨a, rfl, by cases h; rfl⟩

theorem markupPiece_append {piece : Piece} (h : markupPiece cs = .ok (piece, after))
    (more : List Char) : markupPiece (cs ++ more) = .ok (piece, after ++ more) := by
  unfold markupPiece at h
  split at h
  · cases h
  · obtain ⟨a, ha, hf⟩ := map_eq_ok h
    cases hf
    rw [List.cons_append, markupPiece, ← List.cons_append, skipBang_append ha more]
    rfl
  · obtain ⟨a, ha, hf⟩ := map_eq_ok h
    cases hf
    rw [List.cons_append, markupPiece, ← List.cons_append, skipInstruction_append ha more]
    rfl
  · obtain ⟨⟨content, rest⟩, ha, hf⟩ := map_eq_ok h
    cases hf
    rw [List.cons_append, markupPiece, splitTag_append ha more]
    rfl
  · next hnil hbang hquestion hslash =>
    obtain ⟨⟨content, rest⟩, ha, hf⟩ := map_eq_ok h
    cases hf
    cases cs with
    | nil => exact absurd rfl hnil
    | cons c cs =>
      -- what follows does not change the first character
      have hhead : ∀ {d : Char} {ds : List Char}, c :: (cs ++ more) = d :: ds → c :: cs = d :: cs :=
        fun heq => congrArg (· :: cs) (List.cons.inj heq).1
      rw [List.cons_append, markupPiece, ← List.cons_append, splitTag_append ha more]
      · rfl
      · intro heq
        cases heq
      · intro ds heq
        exact hbang cs (hhead heq)
      · intro ds heq
        exact hquestion cs (hhead heq)
      · intro ds heq
        exact hslash cs (hhead heq)

/-- Markup and references end where they have ended. -/
theorem nextPiece_append {c : Char} {piece : Piece} (hc : isText c = false)
    (h : nextPiece c cs = .ok (piece, after)) (more : List Char) :
    nextPiece c (cs ++ more) = .ok (piece, after ++ more) := by
  unfold nextPiece at h ⊢
  split at h
  · next hlt =>
    rw [if_pos hlt]
    exact markupPiece_append h more
  · next hlt =>
    rw [if_neg hlt]
    split at h
    · next hamp =>
      rw [if_pos hamp]
      split at h
      · next after' hd =>
        cases h
        rw [List.dropWhile_append, hd]
        rfl
      · cases h
    · next hamp =>
      -- any other character is text
      simp only [isText, Bool.and_eq_false_iff, bne_eq_false_iff_eq] at hc
      rcases hc with hc | hc
      · exact absurd (beq_iff_eq.mpr hc) hlt
      · exact absurd (beq_iff_eq.mpr hc) hamp

end Stubwright.Markup

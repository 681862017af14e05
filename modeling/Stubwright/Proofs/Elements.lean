import Stubwright.Proofs.Continuation
import Stubwright.Proofs.TagText

/-!
# Elements and their texts

    elements ──Written──▶ document text ──scan──▶ events

An element opens and closes at once, or it is a pair of tags with elements between them. `Written`
relates a sequence of elements to all texts that hold exactly these: between tags there may be
whatever leaves no event (`Filler`), and end tags may hold blanks. Main statement (`scan_written`):
the scan of such a text gives the events of the elements, and no fault. In particular all elements
are closed (`openAfter_eventsOf`).
-/

namespace Stubwright.Markup

/-! ## Elements -/

/-- An element of a document. -/
inductive Element where
  /-- One tag that opens and closes the element. -/
  | single (tag : Tag)
  /-- A start tag, what is in the element, and an end tag. -/
  | paired (tag : Tag) (children : List Element)

/-- The tag that opens the element. -/
def Element.tag : Element → Tag
  | single tag => tag
  | paired tag _ => tag

/-- The elements in the element. -/
def Element.children : Element → List Element
  | single _ => []
  | paired _ children => children

mutual

/-- The events of an element. -/
def Element.events : Element → List Event
  | .single tag => [.empty tag]
  | .paired tag children => .start tag :: (eventsOf children ++ [.close tag.name])

/-- The events of a sequence of elements. -/
def eventsOf : List Element → List Event
  | [] => []
  | e :: es => e.events ++ eventsOf es

end

@[simp] theorem eventsOf_append (es es' : List Element) :
    eventsOf (es ++ es') = eventsOf es ++ eventsOf es' := by
  induction es with
  | nil => rfl
  | cons e es ih => rw [List.cons_append, eventsOf, eventsOf, ih, List.append_assoc]

@[simp] theorem eventsOf_singleton (e : Element) : eventsOf [e] = e.events := by
  rw [eventsOf, eventsOf, List.append_nil]

mutual

/-- An element closes what it opens. -/
theorem openAfter_events (e : Element) (opened : List String) :
    openAfter opened e.events = some opened := by
  cases e with
  | single tag => rfl
  | paired tag children =>
    rw [Element.events, openAfter_start, openAfter_append, openAfter_eventsOf children,
      Option.bind_some, openAfter_close, openAfter_nil]

/-- **Elements close what they open.** -/
theorem openAfter_eventsOf (es : List Element) (opened : List String) :
    openAfter opened (eventsOf es) = some opened := by
  cases es with
  | nil => rfl
  | cons e es =>
    rw [eventsOf, openAfter_append, openAfter_events e, Option.bind_some]
    exact openAfter_eventsOf es opened

end

/-! ## Filler -/

/-- What may stand between tags and leaves no event. -/
inductive Filler : List Char → Prop
  | nil : Filler []
  /-- Text, blanks among it. -/
  | text {c : Char} {cs : List Char} : isText c = true → Filler cs → Filler (c :: cs)
  | reference {body cs : List Char} : (∀ c ∈ body, isTextReference c = true) → Filler cs →
      Filler ('&' :: body ++ ';' :: cs)
  | comment {body cs : List Char} : ¬ ['-', '-', '>'] <:+: body → Filler cs →
      Filler ('<' :: '!' :: '-' :: '-' :: body ++ '-' :: '-' :: '>' :: cs)
  | characterData {body cs : List Char} : ¬ [']', ']', '>'] <:+: body → Filler cs →
      Filler ('<' :: "![CDATA[".toList ++ body ++ ']' :: ']' :: '>' :: cs)
  /-- An instruction, or the declaration in front of a document. -/
  | instruction {body cs : List Char} : ¬ ['?', '>'] <:+: '?' :: body → Filler cs →
      Filler ('<' :: '?' :: body ++ '?' :: '>' :: cs)

/-- Only where the mark stands its last character is met. -/
theorem not_prefix_of_first {word body : List Char} (hword : '>' ∉ word)
    (hbody : ¬ (word ++ ['>']) <:+: body) (hne : body ≠ []) (after : List Char) :
    ¬ (word ++ ['>']) <+: body ++ (word ++ after) := by
  intro h
  by_cases hlength : (word ++ ['>']).length ≤ body.length
  · exact hbody (List.prefix_of_prefix_length_le h (List.prefix_append _ _) hlength).isInfix
  · -- it would end inside the word, where none of its characters is the mark's last
    have hpos : 0 < body.length := List.length_pos_iff.mpr hne
    rw [List.length_append, List.length_singleton] at hlength
    have hlast : (body ++ (word ++ after))[word.length]? = some '>' := by
      obtain ⟨rest, hrest⟩ := h
      rw [← hrest, List.append_assoc, List.getElem?_append_right (Nat.le_refl _), Nat.sub_self]
      rfl
    rw [List.getElem?_append_right (by omega), List.getElem?_append_left (by omega)] at hlast
    exact hword (List.mem_of_getElem? hlast)

/-- A mark is found where it stands first, if only its last character can end it. -/
theorem afterMark?_first {word body : List Char} (hword : '>' ∉ word)
    (hbody : ¬ (word ++ ['>']) <:+: body) (after : List Char) :
    afterMark? (word ++ ['>']) (body ++ (word ++ '>' :: after)) = some after := by
  induction body with
  | nil =>
    have hsplit : word ++ '>' :: after = word ++ ['>'] ++ after := by simp
    have hp : (word ++ ['>']).isPrefixOf (word ++ '>' :: after) = true := by
      rw [List.isPrefixOf_iff_prefix, hsplit]
      exact List.prefix_append _ _
    rw [List.nil_append]
    cases hcs : word ++ '>' :: after with
    | nil => simp at hcs
    | cons c cs => rw [afterMark?, ← hcs, if_pos hp, hsplit, List.drop_left]
  | cons c body ih =>
    have hrest : ¬ (word ++ ['>']) <:+: body := fun h => hbody (List.infix_cons h)
    have hp : ¬ (word ++ ['>']).isPrefixOf (c :: (body ++ (word ++ '>' :: after))) = true := by
      rw [List.isPrefixOf_iff_prefix]
      exact not_prefix_of_first hword hbody (by simp) ('>' :: after)
    rw [List.cons_append, afterMark?, if_neg hp]
    exact ih hrest

variable {opened : List String} {cs : List Char}

theorem skipTo_eq {opening mark : String} {fault : Fault} {word body : List Char}
    (hmark : mark.toList = word ++ ['>']) (hword : '>' ∉ word)
    (hbody : ¬ (word ++ ['>']) <:+: body) (after : List Char) :
    skipTo opening mark fault (opening.toList ++ (body ++ (word ++ '>' :: after))) = .ok after := by
  have hp : opening.toList.isPrefixOf (opening.toList ++ (body ++ (word ++ '>' :: after))) = true :=
    List.isPrefixOf_iff_prefix.mpr (List.prefix_append _ _)
  unfold skipTo
  rw [if_pos hp, ← String.length_toList, List.drop_left, hmark, afterMark?_first hword hbody]

theorem markupPiece_comment {body : List Char} (hbody : ¬ ['-', '-', '>'] <:+: body)
    (after : List Char) :
    markupPiece ('!' :: '-' :: '-' :: body ++ '-' :: '-' :: '>' :: after)
      = .ok (.silent, after) := by
  have hskip : skipTo "!--" "-->" .unclosedComment
      ("!--".toList ++ (body ++ (['-', '-'] ++ '>' :: after))) = .ok after :=
    skipTo_eq rfl (by decide) hbody after
  show (skipTo "!--" "-->" .unclosedComment
    ("!--".toList ++ (body ++ (['-', '-'] ++ '>' :: after)))).map _ = _
  rw [hskip]
  rfl

theorem markupPiece_characterData {body : List Char} (hbody : ¬ [']', ']', '>'] <:+: body)
    (after : List Char) :
    markupPiece ("![CDATA[".toList ++ body ++ ']' :: ']' :: '>' :: after)
      = .ok (.silent, after) := by
  have hskip : skipTo "![CDATA[" "]]>" .unclosedCharacterData
      ("![CDATA[".toList ++ (body ++ ([']', ']'] ++ '>' :: after))) = .ok after :=
    skipTo_eq rfl (by decide) hbody after
  rw [List.append_assoc]
  show (skipTo "![CDATA[" "]]>" .unclosedCharacterData
    ("![CDATA[".toList ++ (body ++ ([']', ']'] ++ '>' :: after)))).map _ = _
  rw [hskip]
  rfl

theorem markupPiece_instruction {body : List Char} (hbody : ¬ ['?', '>'] <:+: '?' :: body)
    (after : List Char) :
    markupPiece ('?' :: body ++ '?' :: '>' :: after) = .ok (.silent, after) := by
  have hword : '>' ∉ ['?'] := by decide
  have hafter : afterMark? "?>".toList ('?' :: body ++ (['?'] ++ '>' :: after)) = some after :=
    afterMark?_first hword hbody after
  have hstart : ¬ "?>".toList.isPrefixOf ('?' :: body ++ (['?'] ++ '>' :: after)) = true := by
    rw [List.isPrefixOf_iff_prefix]
    exact not_prefix_of_first hword hbody (by simp) ('>' :: after)
  have hskip : skipInstruction ('?' :: body ++ (['?'] ++ '>' :: after)) = .ok after := by
    unfold skipInstruction
    rw [hafter]
    dsimp only
    rw [if_neg hstart]
  show (skipInstruction ('?' :: body ++ (['?'] ++ '>' :: after))).map _ = _
  rw [hskip]
  rfl

/-- Filler leaves no event. -/
theorem scanFrom_filler {filler : List Char} (h : Filler filler) (cs : List Char) :
    scanFrom opened (filler ++ cs) = scanFrom opened cs := by
  induction h with
  | nil => rfl
  | text hc _ ih =>
    rw [List.cons_append, ← List.singleton_append, scanFrom_text (by simpa using hc), ih]
  | @reference body rest hbody _ ih =>
    have hskip : ∀ ds, skipSpace ('&' :: ds) = '&' :: ds := skipSpace_cons (by decide)
    have hpiece : nextPiece '&' (body ++ ';' :: (rest ++ cs)) = .ok (.silent, rest ++ cs) := by
      unfold nextPiece
      rw [if_neg (by decide), if_pos (by decide), List.dropWhile_append_of_pos hbody,
        List.dropWhile_cons_of_neg (by decide)]
      rfl
    have hsplit : '&' :: body ++ ';' :: rest ++ cs = '&' :: (body ++ ';' :: (rest ++ cs)) := by simp
    rw [hsplit, scanFrom_piece (hskip _) hpiece, afterPiece, ih]
  | @comment body rest hbody _ ih =>
    rw [← ih]
    have hpiece := markupPiece_comment hbody (rest ++ cs)
    simpa [afterPiece] using scanFrom_markup hpiece
  | @characterData body rest hbody _ ih =>
    rw [← ih]
    have hpiece := markupPiece_characterData hbody (rest ++ cs)
    simpa [afterPiece] using scanFrom_markup hpiece
  | @instruction body rest hbody _ ih =>
    rw [← ih]
    have hpiece := markupPiece_instruction hbody (rest ++ cs)
    simpa [afterPiece] using scanFrom_markup hpiece

/-! ## Texts of elements -/

/-- A tag with a proper name whose attributes are well formed. -/
structure Tag.WellFormed (tag : Tag) : Prop where
  name : IsName tag.name.toList
  text : ∃ attributes, WellFormedText attributes tag.rest

/-- A tag that is written plainly. -/
theorem wellFormed_plain {name : String} {attributes : List (List Char × List Char)}
    (hname : IsName name.toList) (h : ∀ a ∈ attributes, IsName a.1 ∧ '"' ∉ a.2)
    (hdistinct : (attributes.map (·.1)).Nodup) : (Tag.mk name (plainText attributes)).WellFormed :=
  ⟨hname, attributes, plainText_wellFormed h hdistinct⟩

theorem wellFormed_bare {name : String} (hname : IsName name.toList) :
    (Tag.mk name []).WellFormed :=
  ⟨hname, [], .done (List.forall_mem_nil _)⟩

/-- The texts that hold some elements, one after the other. -/
inductive Written : List Element → List Char → Prop
  | done {filler : List Char} : Filler filler → Written [] filler
  | single {tag : Tag} {es : List Element} {filler rest : List Char} :
      Filler filler → tag.WellFormed → Written es rest →
      Written (.single tag :: es)
        (filler ++ '<' :: (tag.name.toList ++ tag.rest ++ '/' :: '>' :: rest))
  | paired {tag : Tag} {children es : List Element} {filler content blanks rest : List Char} :
      Filler filler → tag.WellFormed → Written children content → Blanks blanks →
      Written es rest →
      Written (.paired tag children :: es)
        (filler ++ '<' :: (tag.name.toList ++ tag.rest ++ '>' ::
          (content ++ '<' :: ('/' :: tag.name.toList ++ blanks ++ '>' :: rest))))

/-! ## Texts one after the other -/

theorem Filler.append {filler filler' : List Char} (h : Filler filler) (h' : Filler filler') :
    Filler (filler ++ filler') := by
  induction h with
  | nil => exact h'
  | text hc _ ih => exact .text hc ih
  | reference hbody _ ih => simpa using Filler.reference hbody ih
  | comment hbody _ ih => simpa using Filler.comment hbody ih
  | characterData hbody _ ih => simpa using Filler.characterData hbody ih
  | instruction hbody _ ih => simpa using Filler.instruction hbody ih

theorem Blanks.filler {blanks : List Char} (h : Blanks blanks) : Filler blanks := by
  induction blanks with
  | nil => exact .nil
  | cons c blanks ih =>
    have h := List.forall_mem_cons.mp h
    exact .text (isText_of_isSpace h.1) (ih h.2)

/-- Filler in front of elements changes nothing. -/
theorem Written.behind {es : List Element} {filler text : List Char} (h : Written es text)
    (hfiller : Filler filler) : Written es (filler ++ text) := by
  cases h with
  | done h => exact .done (hfiller.append h)
  | single h htag hrest => simpa using Written.single (hfiller.append h) htag hrest
  | paired h htag hchildren hblanks hrest =>
    simpa using Written.paired (hfiller.append h) htag hchildren hblanks hrest

/-- Texts one after the other hold the elements one after the other. -/
theorem Written.append {es es' : List Element} {text text' : List Char} (h : Written es text)
    (h' : Written es' text') : Written (es ++ es') (text ++ text') := by
  induction h with
  | done hfiller => exact h'.behind hfiller
  | single hfiller htag _ ih => simpa using Written.single hfiller htag ih
  | paired hfiller htag hchildren hblanks _ _ ih =>
    simpa using Written.paired hfiller htag hchildren hblanks ih

/-- **Pieces that hold an element each hold all of them together.** -/
theorem written_join {α : Type} {element : α → Element} {piece : α → String}
    (h : ∀ a, Written [element a] (piece a).toList) (items : List α) :
    Written (items.map element) (String.join (items.map piece)).toList := by
  induction items with
  | nil => exact .done .nil
  | cons a items ih =>
    rw [List.map_cons, List.map_cons, String.join_cons, String.toList_append]
    exact (h a).append ih

/-! ## One way to write elements -/

/-- An element whose tags are all well formed. -/
inductive Element.WellFormed : Element → Prop
  | single {tag : Tag} : tag.WellFormed → WellFormed (.single tag)
  | paired {tag : Tag} {children : List Element} : tag.WellFormed →
      (∀ child ∈ children, WellFormed child) → WellFormed (.paired tag children)

mutual

/-- The text of an element with nothing between its tags. -/
def Element.text : Element → List Char
  | .single tag => '<' :: (tag.name.toList ++ tag.rest ++ ['/', '>'])
  | .paired tag children =>
    '<' :: (tag.name.toList ++ tag.rest ++ '>' ::
      (textOf children ++ '<' :: ('/' :: tag.name.toList ++ ['>'])))

/-- The text of a sequence of elements with nothing between them. -/
def textOf : List Element → List Char
  | [] => []
  | e :: es => e.text ++ textOf es

end

mutual

theorem written_cons {e : Element} (h : e.WellFormed) {es : List Element} {rest : List Char}
    (hrest : Written es rest) : Written (e :: es) (e.text ++ rest) := by
  cases e with
  | single tag =>
    cases h with
    | single htag =>
      have hwritten := Written.single .nil htag hrest
      simpa [Element.text] using hwritten
  | paired tag children =>
    cases h with
    | paired htag hchildren =>
      have hblanks : Blanks [] := List.forall_mem_nil _
      have hwritten := Written.paired .nil htag (written_textOf hchildren) hblanks hrest
      simpa [Element.text] using hwritten

/-- **Elements with well-formed tags can be written.** -/
theorem written_textOf {es : List Element} (h : ∀ e ∈ es, e.WellFormed) :
    Written es (textOf es) := by
  cases es with
  | nil => exact .done .nil
  | cons e es =>
    rw [List.forall_mem_cons] at h
    exact written_cons h.1 (written_textOf h.2)

end

/-- The document of one element. -/
def documentOf (e : Element) : String := String.ofList (textOf [e])

theorem written_documentOf {e : Element} (h : e.WellFormed) :
    Written [e] (documentOf e).toList := by
  rw [documentOf, String.toList_ofList]
  exact written_textOf (List.forall_mem_singleton.mpr h)

/-! ## The scan of written elements -/

theorem Transcript.prepend_append (first later : List Event) (t : Transcript) :
    t.prepend (first ++ later) = (t.prepend later).prepend first := by
  rw [prepend, prepend, prepend, List.append_assoc]

theorem Transcript.cons_eq (event : Event) (t : Transcript) : t.cons event = t.prepend [event] :=
  rfl

/-- The scan of written elements, whatever follows them. -/
theorem scanFrom_written {es : List Element} {text : List Char} (h : Written es text)
    (cs : List Char) :
    scanFrom opened (text ++ cs) = (scanFrom opened cs).prepend (eventsOf es) := by
  induction h generalizing opened cs with
  | done hfiller => exact scanFrom_filler hfiller cs
  | @single tag es filler rest hfiller htag _ ih =>
    obtain ⟨attributes, htext⟩ := htag.text
    have hpiece := markupPiece_selfClosing htag.name htext (rest ++ cs)
    rw [String.ofList_toList] at hpiece
    have hsplit : filler ++ '<' :: (tag.name.toList ++ tag.rest ++ '/' :: '>' :: rest) ++ cs
        = filler ++ '<' :: (tag.name.toList ++ tag.rest ++ '/' :: '>' :: (rest ++ cs)) := by simp
    rw [hsplit, scanFrom_filler hfiller, scanFrom_markup hpiece, afterPiece, ih,
      Transcript.cons_eq, ← Transcript.prepend_append]
    rfl
  | @paired tag children es filler content blanks rest hfiller htag _ hblanks _ ihcontent ih =>
    obtain ⟨attributes, htext⟩ := htag.text
    have hend := markupPiece_closing htag.name hblanks (rest ++ cs)
    have hpiece := markupPiece_opening htag.name htext
      (content ++ '<' :: ('/' :: tag.name.toList ++ blanks ++ '>' :: (rest ++ cs)))
    rw [String.ofList_toList] at hpiece hend
    have hsplit : filler ++ '<' :: (tag.name.toList ++ tag.rest ++ '>' ::
          (content ++ '<' :: ('/' :: tag.name.toList ++ blanks ++ '>' :: rest))) ++ cs
        = filler ++ '<' :: (tag.name.toList ++ tag.rest ++ '>' ::
          (content ++ '<' :: ('/' :: tag.name.toList ++ blanks ++ '>' :: (rest ++ cs)))) := by
      simp
    rw [hsplit, scanFrom_filler hfiller, scanFrom_markup hpiece, afterPiece, ihcontent,
      scanFrom_markup hend, afterPiece, if_pos (by simp), ih, Transcript.cons_eq,
      Transcript.cons_eq, ← Transcript.prepend_append, ← Transcript.prepend_append,
      ← Transcript.prepend_append]
    simp only [eventsOf, Element.events, List.cons_append, List.nil_append, List.append_assoc]

/-- **The scan of a text that holds some elements gives their events.** -/
theorem scan_written {es : List Element} {text : String} (h : Written es text.toList) :
    scan text = ⟨eventsOf es, none⟩ := by
  have hscan : scanFrom [] (text.toList ++ []) = (scanFrom [] []).prepend (eventsOf es) :=
    scanFrom_written h []
  rw [List.append_nil] at hscan
  rw [scan_eq, hscan, scanFrom_nil rfl]
  simp [Transcript.prepend]

end Stubwright.Markup

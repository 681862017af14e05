import Stubwright.Proofs.Ends

/-!
# A text goes on where its beginning ends

The scan of a text that ends between two pieces can be continued with any other text. Main
statement:

* `scanFrom_append` — the events of the whole are those of the beginning, then those of the rest,
  scanned inside the elements that the beginning has left open.

`openAfter` says which these are. It gives none where an end tag does not close the innermost open
element; the scan reports such a tag as a fault, so that its own events are never of that kind
(`openAfter_scanFrom`).
-/

namespace Stubwright.Markup

variable {cs after more : List Char}

/-! ## The elements that are open -/

/-- The open elements, innermost first, after one more event. An end tag has to name the innermost
one. -/
def nest (opened : List String) : Event → Option (List String)
  | .start tag => some (tag.name :: opened)
  | .empty _ => some opened
  | .close name =>
    match opened with
    | [] => none
    | innermost :: outer => if name = innermost then some outer else none

/-- The open elements after some events. -/
def openAfter (opened : List String) (events : List Event) : Option (List String) :=
  events.foldlM nest opened

variable {opened opened' : List String} {events : List Event}

@[simp] theorem openAfter_nil : openAfter opened [] = some opened := rfl

@[simp] theorem openAfter_start (tag : Tag) :
    openAfter opened (.start tag :: events) = openAfter (tag.name :: opened) events := rfl

@[simp] theorem openAfter_empty (tag : Tag) :
    openAfter opened (.empty tag :: events) = openAfter opened events := rfl

@[simp] theorem openAfter_close (name : String) :
    openAfter (name :: opened) (.close name :: events) = openAfter opened events := by
  simp [openAfter, nest]

/-- An end tag closes the innermost element. -/
theorem nest_close_eq_some_iff {name : String} :
    nest opened (.close name) = some opened' ↔ opened = name :: opened' := by
  cases opened with
  | nil => exact iff_of_false nofun nofun
  | cons innermost outer =>
    rw [nest, Option.ite_none_right_eq_some, Option.some.injEq, List.cons.injEq, eq_comm (a := name)]

theorem openAfter_cons {event : Event} (h : openAfter opened (event :: events) = some opened') :
    ∃ between, nest opened event = some between ∧ openAfter between events = some opened' := by
  rw [openAfter, List.foldlM_cons] at h
  exact Option.bind_eq_some_iff.mp h

theorem openAfter_append (first later : List Event) :
    openAfter opened (first ++ later) = (openAfter opened first).bind (openAfter · later) :=
  List.foldlM_append

/-- What is open further out has no part in it. -/
theorem openAfter_frame (h : openAfter opened events = some opened') (outer : List String) :
    openAfter (opened ++ outer) events = some (opened' ++ outer) := by
  induction events generalizing opened with
  | nil =>
    cases h
    rfl
  | cons event events ih =>
    cases event with
    | start tag =>
      rw [openAfter_start] at h ⊢
      exact ih h
    | empty tag =>
      rw [openAfter_empty] at h ⊢
      exact ih h
    | close name =>
      -- an end tag that closed something further out would be refused without it
      obtain ⟨inner, hnest, hrest⟩ := openAfter_cons h
      obtain rfl := nest_close_eq_some_iff.mp hnest
      rw [List.cons_append, openAfter_close]
      exact ih hrest

/-! ## The scan goes on -/

/-- Puts events in front of a transcript. -/
def Transcript.prepend (events : List Event) (t : Transcript) : Transcript :=
  { t with events := events ++ t.events }

theorem scanFrom_nil (h : skipSpace cs = []) : scanFrom opened cs = ⟨[], none⟩ := by
  rw [scanFrom]
  split
  · rfl
  · next hs => rw [h] at hs; cases hs

/-- What a piece does to the scan. -/
def afterPiece (opened : List String) (cs : List Char) : Piece → Transcript
  | .silent => scanFrom opened cs
  | .selfClosing tag => (scanFrom opened cs).cons (.empty tag)
  | .opening tag => (scanFrom (tag.name :: opened) cs).cons (.start tag)
  | .closing name =>
    match opened with
    | [] => .failed (.unmatchedEnd name)
    | innermost :: outer =>
      if name == innermost then (scanFrom outer cs).cons (.close name)
      else .failed (.mismatchedEnd innermost name)

theorem scanFrom_piece {c : Char} {rest : List Char} {piece : Piece} (hs : skipSpace cs = c :: rest)
    (hp : nextPiece c rest = .ok (piece, after)) :
    scanFrom opened cs = afterPiece opened after piece := by
  rw [scanFrom]
  split
  · next h => rw [h] at hs; cases hs
  · next c' rest' h =>
    rw [h] at hs
    cases hs
    split
    all_goals
      next hf =>
        rw [hp] at hf
        cases hf
        try rfl

/-- Markup starts with `<`. -/
theorem scanFrom_markup {piece : Piece} (h : markupPiece cs = .ok (piece, after)) :
    scanFrom opened ('<' :: cs) = afterPiece opened after piece := by
  have hskip : skipSpace ('<' :: cs) = '<' :: cs := List.dropWhile_cons_of_neg (by decide)
  exact scanFrom_piece hskip h

theorem scanFrom_fault {c : Char} {rest : List Char} {fault : Fault}
    (hs : skipSpace cs = c :: rest) (hp : nextPiece c rest = .error fault) :
    scanFrom opened cs = .failed fault := by
  rw [scanFrom]
  split
  · next h => rw [h] at hs; cases hs
  · next c' rest' h =>
    rw [h] at hs
    cases hs
    split
    all_goals
      next hf =>
        rw [hp] at hf
        cases hf
        try rfl

theorem scanFrom_congr {ds : List Char} (h : skipSpace cs = skipSpace ds) :
    scanFrom opened cs = scanFrom opened ds := by
  cases hs : skipSpace ds with
  | nil => rw [scanFrom_nil hs, scanFrom_nil (h.trans hs)]
  | cons c rest =>
    cases hp : nextPiece c rest with
    | error fault => rw [scanFrom_fault hs hp, scanFrom_fault (h.trans hs) hp]
    | ok next => rw [scanFrom_piece hs hp, scanFrom_piece (h.trans hs) hp]

theorem isText_of_isSpace {c : Char} (hc : isSpace c = true) : isText c = true := by
  unfold isSpace at hc
  simp only [Bool.or_eq_true, beq_iff_eq] at hc
  rcases hc with ((rfl | rfl) | rfl) | rfl <;> decide

/-- A text is its leading blanks and what is left of it. -/
theorem eq_append_skipSpace (cs : List Char) :
    ∃ blanks, (∀ c ∈ blanks, isSpace c = true) ∧ cs = blanks ++ skipSpace cs :=
  ⟨cs.takeWhile isSpace, fun _ hc => List.mem_takeWhile_imp hc,
    List.takeWhile_append_dropWhile.symm⟩

theorem nextPiece_text {c : Char} (hc : isText c = true) (cs : List Char) :
    nextPiece c cs = .ok (.silent, cs.dropWhile isText) := by
  simp only [isText, Bool.and_eq_true, bne_iff_ne, ne_eq] at hc
  unfold nextPiece
  rw [if_neg (by simpa using hc.1), if_neg (by simpa using hc.2)]

/-- Text up to the next markup leaves no trace. -/
theorem scanFrom_dropWhile_isText (cs : List Char) :
    scanFrom opened (cs.dropWhile isText) = scanFrom opened cs := by
  obtain ⟨blanks, hblanks, hcs⟩ := eq_append_skipSpace cs
  have hdrop : cs.dropWhile isText = (skipSpace cs).dropWhile isText := by
    conv => lhs; rw [hcs]
    exact List.dropWhile_append_of_pos fun c hc => isText_of_isSpace (hblanks c hc)
  rw [hdrop]
  cases hs : skipSpace cs with
  | nil => rw [scanFrom_nil hs, scanFrom_nil rfl]
  | cons c rest =>
    cases hc : isText c with
    | true =>
      -- the scan takes the same text for one piece
      rw [scanFrom_piece hs (nextPiece_text hc rest), List.dropWhile_cons_of_pos hc]
      rfl
    | false =>
      have hspace : isSpace c = false := by
        rw [Bool.eq_false_iff]
        intro h
        rw [isText_of_isSpace h] at hc
        cases hc
      rw [List.dropWhile_cons_of_neg (by simp [hc])]
      apply scanFrom_congr
      rw [hs, skipSpace, List.dropWhile_cons_of_neg (by simp [hspace])]

/-- Text leaves no trace. -/
theorem scanFrom_text {text : List Char} (h : ∀ c ∈ text, isText c = true) (cs : List Char) :
    scanFrom opened (text ++ cs) = scanFrom opened cs := by
  rw [← scanFrom_dropWhile_isText (text ++ cs), List.dropWhile_append_of_pos h,
    scanFrom_dropWhile_isText]

/-- A piece of text ends where the text does; every other piece ends where it has ended. -/
theorem scanFrom_piece_append {c : Char} {rest : List Char} {piece : Piece}
    (hs : skipSpace cs = c :: rest) (hp : nextPiece c rest = .ok (piece, after))
    (more : List Char) :
    scanFrom opened (cs ++ more) = afterPiece opened (after ++ more) piece := by
  obtain ⟨blanks, hblanks, hcs⟩ := eq_append_skipSpace cs
  have hblanks : ∀ d ∈ blanks, isText d = true := fun d hd => isText_of_isSpace (hblanks d hd)
  have hstart : scanFrom opened (cs ++ more) = scanFrom opened (c :: (rest ++ more)) := by
    conv => lhs; rw [hcs, hs, List.append_assoc]
    exact scanFrom_text hblanks _
  rw [hstart]
  cases hc : isText c with
  | true =>
    -- the piece may have become longer, but what it has grown by leaves no trace either
    rw [nextPiece_text hc] at hp
    cases hp
    have htext : ∀ d ∈ [c], isText d = true := by simpa using hc
    rw [← List.singleton_append, scanFrom_text htext, ← scanFrom_dropWhile_isText,
      ← dropWhile_dropWhile_append, scanFrom_dropWhile_isText]
    rfl
  | false =>
    -- markup has ended before `more`
    have hspace : skipSpace (c :: (rest ++ more)) = c :: (rest ++ more) := by
      apply List.dropWhile_cons_of_neg
      intro h
      rw [isText_of_isSpace h] at hc
      cases hc
    exact scanFrom_piece hspace (nextPiece_append hc hp more)

/-- **A text that is scanned to its end can be continued**: what is added is scanned inside the
elements that are open. -/
theorem scanFrom_append (h : (scanFrom opened cs).fault? = none)
    (hopen : openAfter opened (scanFrom opened cs).events = some opened') (more : List Char) :
    scanFrom opened (cs ++ more) =
      (scanFrom opened' more).prepend (scanFrom opened cs).events := by
  fun_induction scanFrom opened cs with
  | case1 opened cs hs =>
    -- nothing but blanks
    cases hopen
    obtain ⟨blanks, hblanks, hcs⟩ := eq_append_skipSpace cs
    rw [hs, List.append_nil] at hcs
    subst hcs
    exact scanFrom_text (fun c hc => isText_of_isSpace (hblanks c hc)) more
  | case2 opened cs c rest hs fault hp => cases h
  | case3 opened cs c rest hs after hp ih =>
    rw [scanFrom_piece_append hs hp]
    exact ih h hopen
  | case4 opened cs c rest hs tag after hp ih =>
    rw [scanFrom_piece_append hs hp, afterPiece, ih h hopen]
    rfl
  | case5 opened cs c rest hs tag after hp ih =>
    rw [scanFrom_piece_append hs hp, afterPiece, ih h hopen]
    rfl
  | case6 cs c rest hs name after hp => cases h
  | case7 cs c rest hs name after hp innermost outer hname ih =>
    obtain rfl : name = innermost := beq_iff_eq.mp hname
    rw [Transcript.cons, openAfter_close] at hopen
    rw [scanFrom_piece_append hs hp, afterPiece, if_pos hname, ih h hopen]
    rfl
  | case8 cs c rest hs name after hp innermost outer hname => cases h

/-- End tags close what is open: the scan goes no further than the first that does not. -/
theorem openAfter_scanFrom (opened : List String) (cs : List Char) :
    ∃ opened', openAfter opened (scanFrom opened cs).events = some opened' := by
  fun_induction scanFrom opened cs with
  | case1 opened cs hs => exact ⟨_, rfl⟩
  | case2 opened cs c rest hs fault hp => exact ⟨_, rfl⟩
  | case3 opened cs c rest hs after hp ih => exact ih
  | case4 opened cs c rest hs tag after hp ih => exact ih
  | case5 opened cs c rest hs tag after hp ih => exact ih
  | case6 cs c rest hs name after hp => exact ⟨_, rfl⟩
  | case7 cs c rest hs name after hp innermost outer hname ih =>
    obtain rfl : name = innermost := beq_iff_eq.mp hname
    rw [Transcript.cons, openAfter_close]
    exact ih
  | case8 cs c rest hs name after hp innermost outer hname => exact ⟨_, rfl⟩

/-- The mark in front of a document is text like any other. -/
theorem scan_eq (text : String) : scan text = scanFrom [] text.toList := by
  unfold scan
  split
  · next c cs htext =>
    split
    · next hc =>
      have hmark : ∀ d ∈ [c], isText d = true := by
        rw [beq_iff_eq.mp hc]
        exact List.forall_mem_singleton.mpr (by decide)
      rw [htext, ← List.singleton_append, scanFrom_text hmark]
    · rw [htext]
  · next htext => rw [htext]

end Stubwright.Markup

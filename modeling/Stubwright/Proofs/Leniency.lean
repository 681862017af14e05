import Stubwright.Proofs.Continuation
import Stubwright.Proofs.Roots
import Stubwright.Proofs.TagText

/-!
# Texts that are no complete documents

The end of the text closes whatever is open, and a malformed attribute is read as absent. So the
reader takes texts that are no complete documents, and this file says what it takes them for. Main
statement (`ofDocument_lenient`):

* a text with missing end tags is read as the text that has them (`ofDocument_completed`);
* wherever a document is cut behind its root, the beginning is a document of its own
  (`ofDocument_cut`);
* a tag with malformed attributes is read as the tag without them, wherever it stands
  (`ofDocument_malformed`).

What is never taken is a text whose scan ends in a fault (`fault?_of_ofDocument`).
-/

namespace Stubwright.Markup

/-! ## Missing end tags -/

/-- The end tags of the open elements, innermost first. -/
def endTags (opened : List String) : List Char :=
  opened.flatMap fun name => '<' :: '/' :: (name.toList ++ ['>'])

/-- Every piece of markup ends, and every element that is opened is closed. -/
structure Complete (text : String) : Prop where
  fault : (scan text).fault? = none
  closed : openAfter [] (scan text).events = some []

theorem scanFrom_endTags {opened : List String} (h : ∀ name ∈ opened, IsName name.toList) :
    scanFrom opened (endTags opened) = ⟨opened.map .close, none⟩ := by
  induction opened with
  | nil => exact scanFrom_nil rfl
  | cons name outer ih =>
    rw [List.forall_mem_cons] at h
    have hblanks : Blanks [] := List.forall_mem_nil _
    have hpiece := markupPiece_closing h.1 hblanks (endTags outer)
    have hsplit : endTags (name :: outer)
        = '<' :: ('/' :: name.toList ++ [] ++ '>' :: endTags outer) := by
      simp [endTags]
    rw [String.ofList_toList] at hpiece
    rw [hsplit, scanFrom_markup hpiece, afterPiece, if_pos (by simp), ih h.2]
    rfl

theorem openAfter_closes (opened : List String) :
    openAfter opened (opened.map .close) = some [] := by
  induction opened with
  | nil => rfl
  | cons name outer ih =>
    rw [List.map_cons, openAfter_close]
    exact ih

/-- The scan of a text with its missing end tags. -/
theorem scan_completed {text : String} {opened : List String} (h : (scan text).fault? = none)
    (hopen : openAfter [] (scan text).events = some opened)
    (hnames : ∀ name ∈ opened, IsName name.toList) :
    scan (text ++ String.ofList (endTags opened))
      = ⟨(scan text).events ++ opened.map .close, none⟩ := by
  rw [scan_eq] at h hopen
  rw [scan_eq, scan_eq, String.toList_append, String.toList_ofList, scanFrom_append h hopen,
    scanFrom_endTags hnames]
  rfl

/-! ## Malformed attributes -/

variable {seen lost : List (List Char)} {attributes : List (List Char × List Char)}
  {text : List Char}

/-- The well-formed attributes of a tag can be written without the malformed ones. -/
theorem TagText.repaired (h : TagText seen attributes lost text) :
    ∀ {seen'}, seen' ⊆ seen → ∃ text', TagText seen' attributes [] text' := by
  induction h with
  | done hblanks => exact fun _ => ⟨_, .done hblanks⟩
  | quoted hassign hnew hblanks hq hraw _ ih =>
    intro seen' hseen
    obtain ⟨text', htext⟩ := ih (List.cons_subset_cons _ hseen)
    exact ⟨_, .quoted hassign (fun hold => hnew (hseen hold)) hblanks hq hraw htext⟩
  | valueless _ _ _ _ ih => exact fun hseen => ih hseen
  | unquoted _ _ _ _ _ ih =>
    -- a dropped attribute still takes its key, which no later one has
    exact fun hseen => ih (List.Subset.trans hseen (List.subset_cons_self _ _))
  | repeated _ _ _ _ _ _ ih => exact fun hseen => ih hseen

end Stubwright.Markup

namespace Stubwright.Library

open Java Markup

namespace Reading

variable {r r' : Reading} {d : Descriptor} {event : Event} {events : List Event}
  {entries₀ : List JournalEntry}

/-! ## The end of the text -/

theorem finish_congr (hlibrary : r.library? = r'.library?)
    (hopen : unfinished? r.focus = unfinished? r'.focus) : r.finish = r'.finish := by
  rw [finish_eq, finish_eq, settle, settle, hopen]
  cases unfinished? r'.focus with
  | none =>
    show r.result = r'.result
    rw [result, result, hlibrary]
  | some d =>
    show (r.addType d >>= result) = (r'.addType d >>= result)
    rw [addType, addType, hlibrary]

/-- **The end of the text does what the missing end tag would do.** -/
theorem step_close_finish (r : Reading) (name : String) :
    (r.step (.close name) >>= finish) = r.finish := by
  cases hfocus : r.focus with
  | document =>
    simp only [step_document hfocus]
    rfl
  | type d =>
    have hfinish : r.finish = r.addType d >>= result := by
      rw [finish_eq, settle, hfocus]
      rfl
    simp only [step_type hfocus, hfinish]
    cases hadd : r.addType d with
    | error e => rfl
    | ok r' =>
      obtain ⟨L, L', -, -, rfl⟩ := addType_eq_ok_iff.mp hadd
      rfl
  | method d m =>
    -- at the end a method counts as ended, whether or not its end tag stood there
    simp only [step_method hfocus]
    split
    · show finish { r with focus := .type (withMember d m) } = r.finish
      apply finish_congr
      · rfl
      · rw [hfocus]
        rfl
    · rfl
  | skipping d? depth =>
    -- how deep the reader is in what it skips does not count at the end
    cases depth with
    | zero =>
      simp only [step_skipping hfocus]
      show finish { r with focus := afterSkipped d? } = r.finish
      apply finish_congr
      · rfl
      · rw [hfocus]
        cases d? <;> rfl
    | succ depth =>
      simp only [step_skipping hfocus]
      show finish { r with focus := .skipping d? depth } = r.finish
      apply finish_congr
      · rfl
      · rw [hfocus]
        rfl

theorem run_closes_finish (r : Reading) (names : List String) :
    (r.run (names.map .close) >>= finish) = r.finish := by
  induction names generalizing r with
  | nil => rfl
  | cons name names ih =>
    have hrest : ∀ r' : Reading, (r'.run (names.map .close) >>= finish) = r'.finish := ih
    rw [List.map_cons, run_cons, bind_assoc]
    simp only [hrest]
    exact step_close_finish r name

/-! ## A beginning of a document -/

/-- A reading can end if there is a library and the name of the open type is free. -/
theorem finish_eq_ok_iff :
    (∃ L, r.finish = .ok L) ↔
      ∃ L, r.library? = some L ∧ ∀ d, unfinished? r.focus = some d → d.name ∉ L.names := by
  rw [finish_eq, settle]
  cases hopen : unfinished? r.focus with
  | none =>
    constructor
    · rintro ⟨L, h⟩
      exact ⟨L, result_eq_ok_iff.mp h, fun d hd => by cases hd⟩
    · rintro ⟨L, h, -⟩
      exact ⟨L, result_eq_ok_iff.mpr h⟩
  | some d =>
    constructor
    · rintro ⟨L', h⟩
      obtain ⟨r', hadd, -⟩ := bind_eq_ok.mp h
      obtain ⟨L, L', hL, htypes, -⟩ := addType_eq_ok_iff.mp hadd
      refine ⟨L, hL, fun d' hd' => ?_⟩
      cases hd'
      exact (add_eq_ok_iff.mp htypes).1
    · rintro ⟨L, hL, hfree⟩
      obtain ⟨L', hadd⟩ := exists_add (hfree d rfl)
      refine ⟨L', ?_⟩
      have hr : r.addType d = .ok ⟨some L', .document⟩ :=
        addType_eq_ok_iff.mpr ⟨L, L', hL, hadd, rfl⟩
      dsimp only
      rw [hr]
      rfl

/-- As long as a type is open it keeps its name, and the library waits for it. -/
theorem step_unfinished (hopen : unfinished? r.focus = some d) (hstep : r.step event = .ok r') :
    (r'.library? = r.library? ∧ ∃ d', unfinished? r'.focus = some d' ∧ d'.name = d.name) ∨
      r.addType d = .ok r' := by
  cases hfocus : r.focus with
  | document =>
    rw [hfocus] at hopen
    cases hopen
  | type d₀ =>
    rw [hfocus] at hopen
    cases hopen
    have hchild : ∀ {opens tag}, r.typeChild d opens tag = .ok r' →
        r'.library? = r.library? ∧ ∃ d', unfinished? r'.focus = some d' ∧ d'.name = d.name := by
      intro opens tag hchild
      rcases typeChild_cases hchild with ⟨d', name, rfl, rfl⟩ | ⟨m, -, -, rfl⟩ | rfl
      · cases opens <;> exact ⟨rfl, _, rfl, rfl⟩
      · cases opens <;> exact ⟨rfl, _, rfl, rfl⟩
      · cases opens
        · exact ⟨rfl, d, by simp [hfocus, unfinished?], rfl⟩
        · exact ⟨rfl, _, rfl, rfl⟩
    cases event with
    | start tag | empty tag =>
      simp only [step_type hfocus] at hstep
      exact .inl (hchild hstep)
    | close name =>
      simp only [step_type hfocus] at hstep
      exact .inr hstep
  | method d₀ m =>
    rw [hfocus] at hopen
    cases hopen
    left
    rcases methodStep_cases hfocus hstep with ⟨tag, m', -, -, rfl⟩ | ⟨-, rfl⟩ | ⟨name, -, -, rfl⟩
    · exact ⟨rfl, withMember d₀ m', rfl, rfl⟩
    · exact ⟨rfl, withMember d₀ m, rfl, rfl⟩
    · exact ⟨rfl, withMember d₀ m, by rw [hfocus]; rfl, rfl⟩
  | skipping d? depth =>
    rw [hfocus] at hopen
    obtain rfl : d? = some d := hopen
    left
    rcases skippingStep_cases hfocus hstep with
      ⟨tag, -, rfl⟩ | ⟨tag, -, rfl⟩ | ⟨name, -, -, rfl⟩ | ⟨name, inner, -, -, rfl⟩
    · exact ⟨rfl, d, rfl, rfl⟩
    · exact ⟨rfl, d, by rw [hfocus]; rfl, rfl⟩
    · exact ⟨rfl, d, rfl, rfl⟩
    · exact ⟨rfl, d, rfl, rfl⟩

/-- **If a reading can end later, it can end now.** -/
theorem finish_of_run {L : Library} (h : Records entries₀ r.library?) (hroot : .root ∈ entries₀)
    (hrun : r.run events = .ok r') (hfinish : r'.finish = .ok L) : ∃ L', r.finish = .ok L' := by
  induction events generalizing r entries₀ with
  | nil =>
    cases hrun
    exact ⟨L, hfinish⟩
  | cons event events ih =>
    rw [run_cons, bind_eq_ok] at hrun
    obtain ⟨next, hstep, hrun⟩ := hrun
    obtain ⟨L₁, hlibrary, hfree⟩ :=
      finish_eq_ok_iff.mp (ih (h.step hstep) (List.mem_append_left _ hroot) hrun)
    obtain ⟨L₀, hlibrary₀⟩ := h.exists_library hroot
    apply finish_eq_ok_iff.mpr
    refine ⟨L₀, hlibrary₀, fun d hopen => ?_⟩
    rcases step_unfinished hopen hstep with ⟨hsame, d', hopen', hname⟩ | hadd
    · -- the type goes on: its name is free as long as it is open
      rw [hsame, hlibrary₀] at hlibrary
      cases hlibrary
      rw [← hname]
      exact hfree d' hopen'
    · obtain ⟨L, L', hL, hadd, -⟩ := addType_eq_ok_iff.mp hadd
      rw [hlibrary₀] at hL
      cases hL
      exact (add_eq_ok_iff.mp hadd).1

end Reading

/-! ## What the reader takes -/

/-- Only a text whose scan meets no fault is taken. -/
theorem fault?_of_ofDocument {text : String} {L : Library} (h : ofDocument text = .ok L) :
    (scan text).fault? = none :=
  (ofTranscript_eq_ok h).1

/-- **The end of the text closes whatever is open.** -/
theorem ofTranscript_closed {events : List Event} (names : List String) :
    ofTranscript ⟨events ++ names.map .close, none⟩ = ofTranscript ⟨events, none⟩ := by
  have hclosed : ∀ r : Reading, (r.run (names.map .close) >>= Reading.finish) = r.finish :=
    fun r => r.run_closes_finish names
  rw [ofTranscript_of_fault?_eq_none rfl, ofTranscript_of_fault?_eq_none rfl, Reading.run_append,
    bind_assoc]
  simp only [hclosed]

/-- **A text with missing end tags is read as the complete text.** -/
theorem ofDocument_completed {text : String} {opened : List String}
    (h : (scan text).fault? = none) (hopen : openAfter [] (scan text).events = some opened)
    (hnames : ∀ name ∈ opened, IsName name.toList) :
    Complete (text ++ String.ofList (endTags opened)) ∧
      ofDocument (text ++ String.ofList (endTags opened)) = ofDocument text := by
  have hscan := scan_completed h hopen hnames
  constructor
  · constructor
    · rw [hscan]
    · rw [hscan, openAfter_append, hopen, Option.bind_some, openAfter_closes]
  · rw [ofDocument, ofDocument, hscan, ofTranscript_closed, ← h]

/-- **The beginning of a document, up to any place behind its root, is a document**: the one of the
types that were parsed so far. -/
theorem ofDocument_cut {text more : String} {L : Library} (h : ofDocument (text ++ more) = .ok L)
    (hfault : (scan text).fault? = none) (hroot : .root ∈ journalOf text) :
    ∃ L', ofDocument text = .ok L' ∧ L'.types = sinceRoot (journalOf text) := by
  obtain ⟨opened, hopen⟩ := openAfter_scanFrom [] text.toList
  rw [← scan_eq] at hopen
  have hscan : scan (text ++ more)
      = (scanFrom opened more.toList).prepend (scan text).events := by
    rw [scan_eq] at hfault hopen
    rw [scan_eq, scan_eq, String.toList_append, scanFrom_append hfault hopen]
  obtain ⟨-, r, hrun, hfinish⟩ := ofTranscript_eq_ok h
  rw [hscan, Transcript.prepend, Reading.run_append, bind_eq_ok] at hrun
  obtain ⟨cut, hcut, hrest⟩ := hrun
  have hstart : Reading.Records [] ({} : Reading).library? := rfl
  obtain ⟨entries, hrecords, hjournal⟩ := hstart.run hcut
  -- what is still open is a type and no root
  have hroot : .root ∈ entries := by
    rw [journalOf, ← List.nil_append (Reading.journal _ _), hjournal, List.mem_append] at hroot
    refine hroot.resolve_right fun hopen => ?_
    obtain ⟨d, -, hd⟩ := List.mem_map.mp hopen
    cases hd
  obtain ⟨L', hfinish⟩ := Reading.finish_of_run hrecords hroot hrest hfinish
  refine ⟨L', ?_, hstart.finish hcut hfinish⟩
  rw [ofDocument, ofTranscript_of_fault?_eq_none hfault, hcut]
  exact hfinish

/-- **A tag with malformed attributes is read as the tag without them**, wherever it stands. -/
theorem ofDocument_malformed {text : String} {name written proper ending : List Char}
    {attributes : List (List Char × List Char)} {lost : List (List Char)}
    (hfault : (scan text).fault? = none) (hname : IsName name)
    (hwritten : TagText [] attributes lost written) (hproper : WellFormedText attributes proper)
    (hending : ending = ['>'] ∨ ending = ['/', '>']) (after : List Char) :
    ofDocument (text ++ String.ofList ('<' :: (name ++ written ++ ending ++ after))) =
      ofDocument (text ++ String.ofList ('<' :: (name ++ proper ++ ending ++ after))) := by
  obtain ⟨opened, hopen⟩ := openAfter_scanFrom [] text.toList
  have halike : Reading.Alike ⟨String.ofList name, written⟩ ⟨String.ofList name, proper⟩ := by
    refine ⟨rfl, ?_⟩
    rw [Tag.attributes, Tag.attributes, rawAttributes_eq hwritten, rawAttributes_eq hproper]
  rw [scan_eq] at hfault
  rw [ofDocument, ofDocument, scan_eq, scan_eq, String.toList_append, String.toList_append,
    String.toList_ofList, String.toList_ofList, scanFrom_append hfault hopen,
    scanFrom_append hfault hopen]
  rcases hending with rfl | rfl
  · have hpiece := markupPiece_opening hname hwritten after
    have hpiece' := markupPiece_opening hname hproper after
    simp only [List.append_assoc, List.singleton_append] at hpiece hpiece' ⊢
    rw [scanFrom_markup hpiece, scanFrom_markup hpiece']
    apply ofTranscript_congr
    · rfl
    · simp only [Transcript.prepend, afterPiece, Transcript.cons, Reading.run_append,
        Reading.run_cons, Reading.step_start_congr halike]
  · have hpiece := markupPiece_selfClosing hname hwritten after
    have hpiece' := markupPiece_selfClosing hname hproper after
    simp only [List.append_assoc, List.cons_append, List.nil_append] at hpiece hpiece' ⊢
    rw [scanFrom_markup hpiece, scanFrom_markup hpiece']
    apply ofTranscript_congr
    · rfl
    · simp only [Transcript.prepend, afterPiece, Transcript.cons, Reading.run_append,
        Reading.run_cons, Reading.step_empty_congr halike]

/-- **What the reader takes a text for.** A text whose scan meets a fault is refused. Any other text
is read as if its missing end tags stood at its end; if it has a root and some continuation of it
is taken, it is taken itself; and a tag behind it is read as if its malformed attributes were
absent. -/
theorem ofDocument_lenient (text : String) :
    (∀ L, ofDocument text = .ok L → (scan text).fault? = none) ∧
    ((scan text).fault? = none →
      (∃ opened, openAfter [] (scan text).events = some opened ∧
        ofTranscript ⟨(scan text).events ++ opened.map .close, none⟩ = ofDocument text ∧
        ((∀ name ∈ opened, IsName name.toList) →
          Complete (text ++ String.ofList (endTags opened)) ∧
          ofDocument (text ++ String.ofList (endTags opened)) = ofDocument text)) ∧
      (.root ∈ journalOf text → ∀ more L, ofDocument (text ++ more) = .ok L →
        ∃ L', ofDocument text = .ok L' ∧ L'.types = sinceRoot (journalOf text)) ∧
      (∀ name attributes lost written ending after, IsName name →
        TagText [] attributes lost written → (ending = ['>'] ∨ ending = ['/', '>']) →
        (∃ proper, WellFormedText attributes proper) ∧
        ∀ proper, WellFormedText attributes proper →
          ofDocument (text ++ String.ofList ('<' :: (name ++ written ++ ending ++ after))) =
            ofDocument (text ++ String.ofList ('<' :: (name ++ proper ++ ending ++ after))))) := by
  refine ⟨fun L => fault?_of_ofDocument, fun hfault => ⟨?_, ?_, ?_⟩⟩
  · obtain ⟨opened, hopen⟩ := openAfter_scanFrom [] text.toList
    rw [← scan_eq] at hopen
    refine ⟨opened, hopen, ?_, ofDocument_completed hfault hopen⟩
    rw [ofTranscript_closed, ofDocument, ← hfault]
  · exact fun hroot more L h => ofDocument_cut h hfault hroot
  · intro name attributes lost written ending after hname hwritten hending
    constructor
    · exact hwritten.repaired (List.Subset.refl [])
    · exact fun proper hproper =>
        ofDocument_malformed hfault hname hwritten hproper hending after

/-! ### A document that was cut off, and one with a value without quotes -/

/-- A library of one method, cut off behind it. -/
def cutOff : String := "<typeLibrary><type name=\"a.B\"><method name=\"c\"/>"

/-- What is cut off: another method, another type, and the end tags. -/
def remainder : String := "<method name=\"d\"/></type><type name=\"a.E\"/></typeLibrary>"

/-- The attributes of a type that is final, the flag without quotes. -/
def unquotedFlag : List Char := " name=\"a.B\" final=true".toList

/-- The same attributes without the flag. -/
def missingFlag : List Char := " name=\"a.B\"".toList

/-- A library of one type with the given attributes. -/
def libraryOf (attributes : List Char) : String :=
  "<typeLibrary>" ++ String.ofList
    ('<' :: ("type".toList ++ attributes ++ ['/', '>'] ++ "</typeLibrary>".toList))

theorem missingFlag_text : WellFormedText [("name".toList, "a.B".toList)] missingFlag :=
  plainText_wellFormed (by decide) (by decide)

theorem unquotedFlag_text :
    TagText [] [("name".toList, "a.B".toList)] ["final".toList] unquotedFlag := by
  have hblanks : Blanks [] := List.forall_mem_nil _
  have hname : Assigns "name".toList " name=".toList :=
    ⟨[' '], [], by decide, by decide, by decide, hblanks, by decide⟩
  have hfinal : Assigns "final".toList " final=".toList :=
    ⟨[' '], [], by decide, by decide, by decide, hblanks, by decide⟩
  have htrue : IsName "true".toList := by decide
  have hrest : TagText ["name".toList] [] ["final".toList] " final=true".toList :=
    .unquoted hfinal (by decide) hblanks htrue (.done hblanks)
  exact .quoted hname (by decide) hblanks (.inl rfl) (by decide) hrest

theorem ofDocument_lenient_cutOff :
    (∃ L, ofDocument cutOff = .ok L ∧ L.types = sinceRoot (journalOf cutOff)) ∧
      ofDocument (cutOff ++ "</type></typeLibrary>") = ofDocument cutOff ∧
      ofDocument (libraryOf unquotedFlag) = ofDocument (libraryOf missingFlag) := by
  have hfault : (scan cutOff).fault? = none := by decide +kernel
  have hstart : (scan "<typeLibrary>").fault? = none := by decide +kernel
  have hwhole : (ofDocument (cutOff ++ remainder)).isOk = true := by decide +kernel
  obtain ⟨⟨opened, hopen, -, hcompleted⟩, hcut, -⟩ := (ofDocument_lenient cutOff).2 hfault
  obtain ⟨-, -, hmalformed⟩ := (ofDocument_lenient "<typeLibrary>").2 hstart
  refine ⟨?_, ?_, ?_⟩
  · cases h : ofDocument (cutOff ++ remainder) with
    | error e =>
      rw [h] at hwhole
      cases hwhole
    | ok L => exact hcut (by decide +kernel) remainder L h
  · have hknown : openAfter [] (scan cutOff).events = some ["type", "typeLibrary"] := by
      decide +kernel
    rw [hknown] at hopen
    cases hopen
    exact (hcompleted (by decide)).2
  · have hname : IsName "type".toList := by decide
    exact (hmalformed _ _ _ _ _ _ hname unquotedFlag_text (.inr rfl)).2 _ missingFlag_text

/-- The document that was cut off is taken, with one method and one type less, and the flag without
quotes is read as absent. -/
theorem incomplete_documents_taken :
    (∃ L L', ofDocument (cutOff ++ remainder) = .ok L ∧ ofDocument cutOff = .ok L' ∧
      ¬ Complete cutOff ∧ L.types ≠ L'.types) ∧
    (∃ L, TagText [] [("name".toList, "a.B".toList)] ["final".toList] unquotedFlag ∧
      ofDocument (libraryOf unquotedFlag) = .ok L ∧ ∀ d ∈ L.types, d.isFinal = false) := by
  constructor
  · refine ⟨⟨[{ name := "a.B", members := [⟨"c", .primitive .void, [], [], [], false, false⟩,
      ⟨"d", .primitive .void, [], [], [], false, false⟩] }, { name := "a.E" }], by decide⟩,
      ⟨[{ name := "a.B", members := [⟨"c", .primitive .void, [], [], [], false, false⟩] }],
        by decide⟩, by decide +kernel, by decide +kernel, ?_, by decide +kernel⟩
    intro h
    have hclosed := h.closed
    revert hclosed
    decide +kernel
  · exact ⟨⟨[{ name := "a.B" }], by decide⟩, unquotedFlag_text, by decide +kernel, by decide⟩

end Stubwright.Library

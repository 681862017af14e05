import Stubwright.Proofs.Foreign

/-!
# Unknown elements between types and inside a type

    before ++ after ──scan──▶ events before, events after ──────────────▶ library
    before ++ inserted ++ after ──scan──▶ events before, element, events after ──▶ the same

Between types and inside a type the reader skips an element it does not know. It counts the elements
that open and close in there and looks at no name, so that it is back where it was when the element
ends, whatever the element holds (`run_skipping`). Between its tags a document may be continued with
any text that the scan finds in order, and what such a text says does not hang on where it stands
(`scanFrom_frame`).

Main statement (`ofDocument_insert`): so unknown elements can be put at any place of a library or a
type, with comments and text around them or without any element at all, and the same is read.
-/

namespace Stubwright

namespace Markup

variable {opened : List String} {cs : List Char}

/-- Elements further out have no part in the scan of a text that closes only what it opens. -/
theorem scanFrom_frame (h : (scanFrom opened cs).fault? = none) (outer : List String) :
    scanFrom (opened ++ outer) cs = scanFrom opened cs := by
  fun_induction scanFrom opened cs with
  | case1 opened cs hs => exact scanFrom_nil hs
  | case2 opened cs c rest hs fault hp => cases h
  | case3 opened cs c rest hs after hp ih =>
    rw [scanFrom_piece hs hp]
    exact ih h
  | case4 opened cs c rest hs tag after hp ih =>
    rw [scanFrom_piece hs hp, afterPiece, ih h]
  | case5 opened cs c rest hs tag after hp ih =>
    rw [scanFrom_piece hs hp, afterPiece, ← List.cons_append, ih h]
  | case6 cs c rest hs name after hp => cases h
  | case7 cs c rest hs name after hp innermost outer' hname ih =>
    rw [scanFrom_piece hs hp, List.cons_append, afterPiece, if_pos hname, ih h]
  | case8 cs c rest hs name after hp innermost outer' hname => cases h

/-- A text that holds some elements, and whatever else leaves no event, can stand in front of any
other text. -/
theorem scanFrom_elements {es : List Element} {text : String}
    (h : scan text = ⟨eventsOf es, none⟩) (opened : List String) (cs : List Char) :
    scanFrom opened (text.toList ++ cs) = (scanFrom opened cs).prepend (eventsOf es) := by
  rw [scan_eq] at h
  have hread : (scanFrom [] text.toList).fault? = none := by rw [h]
  have hframe : scanFrom opened text.toList = ⟨eventsOf es, none⟩ :=
    (scanFrom_frame hread opened).trans h
  have hopen : openAfter opened (scanFrom opened text.toList).events = some opened := by
    rw [hframe]
    exact openAfter_eventsOf es opened
  rw [scanFrom_append (by rw [hframe]) hopen, hframe]

end Markup

namespace Library

open Java Markup

/-! ## Places -/

/-- The names that count between types. -/
def libraryWords : List String := ["typeLibrary", "type"]

/-- The names that count inside a type. -/
def typeWords : List String := ["extends", "implements", "method"]

/-- What a type may hold: declarations, and what the reader does not know. -/
inductive IsTypeChild (e : Element) : Prop
  | declaration : IsDeclaration e → IsTypeChild e
  | unknown : e.tag.name ∉ typeWords → IsTypeChild e

/-- What a library may hold: types, and what the reader does not know. -/
inductive IsLibraryChild (e : Element) : Prop
  | type : e.tag.name = "type" → (∀ child ∈ e.children, IsTypeChild child) → IsLibraryChild e
  | unknown : e.tag.name ∉ libraryWords → IsLibraryChild e

/-- Where something can be put into a library or into a type of it: behind what stands in front. -/
inductive InsertionPoint where
  | library (root : Tag) (children : List Element)
  | type (root : Tag) (children : List Element) (head : Tag) (declarations : List Element)

namespace InsertionPoint

/-- What stands in front of the place is in the format. -/
def InFormat : InsertionPoint → Prop
  | library root children => root.name = "typeLibrary" ∧ ∀ e ∈ children, IsLibraryChild e
  | type root children head declarations =>
    root.name = "typeLibrary" ∧ (∀ e ∈ children, IsLibraryChild e) ∧
      head.name = "type" ∧ ∀ e ∈ declarations, IsTypeChild e

/-- The names that count at the place. -/
def words : InsertionPoint → List String
  | library _ _ => libraryWords
  | type _ _ _ _ => typeWords

/-- The events up to the place. -/
def eventsBefore : InsertionPoint → List Event
  | library root children => .start root :: eventsOf children
  | type root children head declarations =>
    .start root :: (eventsOf children ++ .start head :: eventsOf declarations)

end InsertionPoint

namespace Reading

variable {r r' : Reading} {d : Descriptor} {e : Element} {es : List Element}

/-! ## Skipping -/

mutual

/-- **An element inside a skipped one leaves the reader where it was**, whatever it holds. -/
theorem run_skipping (e : Element) {r : Reading} {d? : Option Descriptor} {depth : Nat}
    (hfocus : r.focus = .skipping d? depth) : r.run e.events = .ok r := by
  cases e with
  | single tag =>
    rw [Element.events, run_singleton]
    simp only [step_skipping hfocus]
  | paired tag children =>
    have hstart : r.step (.start tag) = .ok { r with focus := .skipping d? (depth + 1) } := by
      simp only [step_skipping hfocus]
    have hclose : ({ r with focus := .skipping d? (depth + 1) } : Reading).step (.close tag.name)
        = .ok r := by
      rw [step_mk_skipping]
      dsimp only [afterEnd]
      rw [← hfocus]
    rw [Element.events, run_cons, hstart, ok_bind, run_append, run_skipping_all children rfl,
      ok_bind, run_singleton, hclose]

/-- So do several. -/
theorem run_skipping_all (es : List Element) {r : Reading} {d? : Option Descriptor} {depth : Nat}
    (hfocus : r.focus = .skipping d? depth) : r.run (eventsOf es) = .ok r := by
  cases es with
  | nil => rfl
  | cons e es =>
    rw [eventsOf, run_append, run_skipping e hfocus, ok_bind]
    exact run_skipping_all es hfocus

end

/-- The reader comes back from an element that it starts to skip. -/
theorem run_skipped {tag : Tag} {children : List Element} (d? : Option Descriptor)
    (hfocus : r.focus = afterSkipped d?)
    (hstart : r.step (.start tag) = .ok { r with focus := .skipping d? 0 }) :
    r.run (Element.paired tag children).events = .ok r := by
  have hclose : ({ r with focus := .skipping d? 0 } : Reading).step (.close tag.name) = .ok r := by
    rw [step_mk_skipping]
    dsimp only [afterEnd]
    rw [← hfocus]
  rw [Element.events, run_cons, hstart, ok_bind, run_append, run_skipping_all children rfl, ok_bind,
    run_singleton, hclose]

theorem documentChild_unknown {tag : Tag} (h : tag.name ∉ libraryWords) (opens : Bool) :
    r.documentChild opens tag
      = .ok (if opens then { r with focus := .skipping none 0 } else r) := by
  unfold documentChild
  split
  · next hname => exact absurd (by rw [hname]; decide) h
  · next hname => exact absurd (by rw [hname]; decide) h
  · rfl

theorem typeChild_unknown {tag : Tag} (h : tag.name ∉ typeWords) (opens : Bool) :
    r.typeChild d opens tag
      = .ok (if opens then { r with focus := .skipping (some d) 0 } else r) := by
  unfold typeChild
  dsimp only
  split
  · next hname => exact absurd (by rw [hname]; decide) h
  · next hname => exact absurd (by rw [hname]; decide) h
  · next hname => exact absurd (by rw [hname]; decide) h
  · rfl

/-- **Between types an unknown element leaves the reader as it was.** -/
theorem run_unknown_document (hfocus : r.focus = .document) (h : e.tag.name ∉ libraryWords) :
    r.run e.events = .ok r := by
  cases e with
  | single tag =>
    rw [Element.events, run_singleton]
    simp only [step_document hfocus]
    exact documentChild_unknown h false
  | paired tag children =>
    refine run_skipped none hfocus ?_
    simp only [step_document hfocus]
    exact documentChild_unknown h true

/-- **So does one inside a type.** -/
theorem run_unknown_type (hfocus : r.focus = .type d) (h : e.tag.name ∉ typeWords) :
    r.run e.events = .ok r := by
  cases e with
  | single tag =>
    rw [Element.events, run_singleton]
    simp only [step_type hfocus]
    exact typeChild_unknown h false
  | paired tag children =>
    refine run_skipped (some d) hfocus ?_
    simp only [step_type hfocus]
    exact typeChild_unknown h true

/-- Elements that each leave the reader as it was do so together. -/
theorem run_eventsOf_same (h : ∀ e ∈ es, r.run e.events = .ok r) : r.run (eventsOf es) = .ok r := by
  induction es with
  | nil => rfl
  | cons e es ih =>
    rw [List.forall_mem_cons] at h
    rw [eventsOf, run_append, h.1, ok_bind]
    exact ih h.2

/-! ## Where the reader is -/

theorem InType.child (h : IsTypeChild e) (hr : r.InType) (hrun : r.run e.events = .ok r') :
    r'.InType := by
  cases h with
  | declaration h => exact InType.declaration h hr hrun
  | unknown h =>
    obtain ⟨d, hfocus⟩ := hr
    rw [run_unknown_type hfocus h] at hrun
    cases hrun
    exact ⟨d, hfocus⟩

theorem documentFocus_child (h : IsLibraryChild e) (hr : r.focus = .document)
    (hrun : r.run e.events = .ok r') : r'.focus = .document := by
  cases h with
  | type hname hchildren =>
    exact documentFocus_type hname (fun c hc _ _ => InType.child (hchildren c hc)) hr hrun
  | unknown h =>
    rw [run_unknown_document hr h] at hrun
    cases hrun
    exact hr

theorem documentFocus_start {root : Tag} {children : List Element} (hroot : root.name = "typeLibrary")
    (hchildren : ∀ e ∈ children, IsLibraryChild e)
    (hrun : ({} : Reading).run (.start root :: eventsOf children) = .ok r) :
    r.focus = .document := by
  rw [run_cons, bind_eq_ok] at hrun
  obtain ⟨opened, hopen, hrun⟩ := hrun
  exact run_eventsOf (P := (·.focus = .document))
    (fun e he _ _ => documentFocus_child (hchildren e he)) (documentFocus_root hroot hopen) hrun

/-- **At a place in the format, an element that is unknown there leaves the reader as it is.** -/
theorem run_at_place {p : InsertionPoint} (hp : p.InFormat)
    (hrun : ({} : Reading).run p.eventsBefore = .ok r) (h : e.tag.name ∉ p.words) :
    r.run e.events = .ok r := by
  cases p with
  | library root children =>
    obtain ⟨hroot, hchildren⟩ := hp
    exact run_unknown_document (documentFocus_start hroot hchildren hrun) h
  | type root children head declarations =>
    obtain ⟨hroot, hchildren, hhead, hdeclarations⟩ := hp
    have hsplit : InsertionPoint.eventsBefore (.type root children head declarations)
        = (.start root :: eventsOf children) ++ .start head :: eventsOf declarations := rfl
    rw [hsplit, run_append, bind_eq_ok] at hrun
    obtain ⟨before, hbefore, hrun⟩ := hrun
    rw [run_cons, bind_eq_ok] at hrun
    obtain ⟨opened, hopen, hrun⟩ := hrun
    have hopened : opened.InType :=
      InType.of_start hhead (documentFocus_start hroot hchildren hbefore) hopen
    obtain ⟨d, hfocus⟩ : r.InType :=
      run_eventsOf (fun c hc _ _ => InType.child (hdeclarations c hc)) hopened hrun
    exact run_unknown_type hfocus h

end Reading

/-! ## Inserting -/

/-- Of the events in front of a transcript only what they lead to counts. -/
theorem ofTranscript_prepend_congr {first first' : List Event}
    (h : ({} : Reading).run first = ({} : Reading).run first') (t : Transcript) :
    ofTranscript (t.prepend first) = ofTranscript (t.prepend first') := by
  refine ofTranscript_congr rfl ?_
  show ({} : Reading).run (first ++ t.events) = ({} : Reading).run (first' ++ t.events)
  rw [Reading.run_append, Reading.run_append, h]

/-- **Unknown elements make no difference.** At any place of a library or of a type, a text may be
put that holds only elements unknown there, whatever these hold, and besides them comments and text,
or these alone: whatever follows, the same is read. -/
theorem ofDocument_insert {p : InsertionPoint} (hp : p.InFormat) {es : List Element}
    (hes : ∀ e ∈ es, e.tag.name ∉ p.words) {before inserted : String}
    (hbefore : scan before = ⟨p.eventsBefore, none⟩)
    (hinserted : scan inserted = ⟨eventsOf es, none⟩) (after : String) :
    ofDocument (before ++ inserted ++ after) = ofDocument (before ++ after) := by
  rw [scan_eq] at hbefore
  obtain ⟨opened, hopen⟩ := openAfter_scanFrom [] before.toList
  have hcontinue : ∀ cs, scanFrom [] (before.toList ++ cs)
      = (scanFrom opened cs).prepend p.eventsBefore := by
    intro cs
    rw [scanFrom_append (by rw [hbefore]) hopen, hbefore]
  have hsame : ({} : Reading).run (p.eventsBefore ++ eventsOf es)
      = ({} : Reading).run p.eventsBefore := by
    rw [Reading.run_append]
    cases hrun : ({} : Reading).run p.eventsBefore with
    | error error => rfl
    | ok r => exact Reading.run_eventsOf_same fun e he => Reading.run_at_place hp hrun (hes e he)
  rw [ofDocument, ofDocument, scan_eq, scan_eq, String.toList_append, String.toList_append,
    String.toList_append, List.append_assoc, hcontinue, hcontinue, scanFrom_elements hinserted,
    ← Transcript.prepend_append]
  exact ofTranscript_prepend_congr hsame _

/-! ### A remark that looks like a type -/

/-- A place inside a type behind a method. -/
def behindMethod : InsertionPoint :=
  .type ⟨"typeLibrary", []⟩ [] ⟨"type", " name=\"a.B\"".toList⟩
    [.single ⟨"method", " name=\"c\"".toList⟩]

/-- A remark that holds what a library holds, itself included. -/
def libraryRemark : Element :=
  .paired ⟨"doc", []⟩ [.paired ⟨"doc", []⟩ [.single ⟨"typeLibrary", []⟩],
    .paired ⟨"type", []⟩ [.paired ⟨"method", []⟩ [.single ⟨"param", []⟩]]]

theorem ofDocument_insert_remark :
    behindMethod.InFormat ∧ (∀ e ∈ [libraryRemark], e.tag.name ∉ behindMethod.words) ∧
      scan "<typeLibrary><type name=\"a.B\"><method name=\"c\"/>" =
        ⟨behindMethod.eventsBefore, none⟩ ∧
      scan ("<!-- <type> -->text<doc><doc><typeLibrary/></doc>" ++
        "<type><method><param/></method></type></doc>") = ⟨eventsOf [libraryRemark], none⟩ ∧
      ofDocument ("<typeLibrary><type name=\"a.B\"><method name=\"c\"/>" ++
        ("<!-- <type> -->text<doc><doc><typeLibrary/></doc>" ++
          "<type><method><param/></method></type></doc>") ++ "</type></typeLibrary>")
        = ofDocument ("<typeLibrary><type name=\"a.B\"><method name=\"c\"/>" ++
            "</type></typeLibrary>") := by
  have hplace : behindMethod.InFormat :=
    ⟨rfl, List.forall_mem_nil _, rfl, List.forall_mem_singleton.mpr
      (.declaration (.method rfl (List.forall_mem_nil _)))⟩
  have hunknown : ∀ e ∈ [libraryRemark], e.tag.name ∉ behindMethod.words :=
    List.forall_mem_singleton.mpr (by decide)
  have hbefore : scan "<typeLibrary><type name=\"a.B\"><method name=\"c\"/>" =
      ⟨behindMethod.eventsBefore, none⟩ := by decide +kernel
  have hinserted : scan ("<!-- <type> -->text<doc><doc><typeLibrary/></doc>" ++
      "<type><method><param/></method></type></doc>") = ⟨eventsOf [libraryRemark], none⟩ := by
    decide +kernel
  exact ⟨hplace, hunknown, hbefore, hinserted, ofDocument_insert hplace hunknown hbefore hinserted _⟩

end Library
end Stubwright

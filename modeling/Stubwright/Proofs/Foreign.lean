import Mathlib.Data.List.Count
import Stubwright.Proofs.Nesting

/-!
# Unknown elements inside a method

Inside a method the reader looks at names only: it takes in every `param`, `throws` and
`annotation`, at whatever depth, and ends the method at the first end tag of that name. So an
unknown element is not skipped with all it holds. Main statement (`unnoticed_iff_inert`): an element
can be put into a method, at any place of any document, without a change of what is read exactly if
it is `Inert`, which means that every one of its events is passed over. What follows from the others
is a part too many (`run_inside`), or a reader that is out of step with the text and loses what
comes after (`lost_behind_end`).
-/

namespace Stubwright.Library

open Java Markup

/-! ## The format -/

/-- What a method may hold. -/
def partNames : List String := ["param", "throws", "annotation"]

/-- An element that describes a part of a method. -/
structure IsPart (e : Element) : Prop where
  name : e.tag.name ∈ partNames
  leaf : e.children = []

/-- An element that says something of a type: a supertype, or a method with its parts. -/
inductive IsDeclaration (e : Element) : Prop
  | supertype : (e.tag.name = "extends" ∨ e.tag.name = "implements") → e.children = [] →
      IsDeclaration e
  | method : e.tag.name = "method" → (∀ part ∈ e.children, IsPart part) → IsDeclaration e

/-- A type with its declarations. -/
structure IsTypeElement (e : Element) : Prop where
  name : e.tag.name = "type"
  declarations : ∀ declaration ∈ e.children, IsDeclaration declaration

/-- A library with its types. -/
structure IsLibraryElement (e : Element) : Prop where
  name : e.tag.name = "typeLibrary"
  types : ∀ type ∈ e.children, IsTypeElement type

/-- A place inside a method of a document. -/
structure MethodPlace where
  root : Tag
  typesBefore : List Element
  type : Tag
  declarationsBefore : List Element
  method : Tag
  partsBefore : List Element
  partsAfter : List Element
  declarationsAfter : List Element
  typesAfter : List Element

namespace MethodPlace

/-- The document with some elements at the place. -/
def fill (p : MethodPlace) (es : List Element) : Element :=
  .paired p.root (p.typesBefore ++ .paired p.type (p.declarationsBefore ++
    .paired p.method (p.partsBefore ++ es ++ p.partsAfter) :: p.declarationsAfter) :: p.typesAfter)

/-- The document without anything at the place is in the format. -/
structure InFormat (p : MethodPlace) : Prop where
  method : p.method.name = "method"
  library : IsLibraryElement (p.fill [])

/-- The events up to the place. -/
def eventsBefore (p : MethodPlace) : List Event :=
  .start p.root :: (eventsOf p.typesBefore ++ .start p.type :: (eventsOf p.declarationsBefore ++
    .start p.method :: eventsOf p.partsBefore))

/-- The events from the place on. -/
def eventsAfter (p : MethodPlace) : List Event :=
  eventsOf p.partsAfter ++ .close p.method.name :: (eventsOf p.declarationsAfter ++
    .close p.type.name :: (eventsOf p.typesAfter ++ [.close p.root.name]))

theorem events_fill (p : MethodPlace) (es : List Element) :
    (p.fill es).events = p.eventsBefore ++ (eventsOf es ++ p.eventsAfter) := by
  simp [fill, eventsBefore, eventsAfter, Element.events, eventsOf, eventsOf_append]

end MethodPlace

/-! ## What is passed over -/

/-- The events that the reader passes over inside a method. -/
def PassedOver : Event → Prop
  | .start tag | .empty tag => tag.name ∉ partNames
  | .close name => name ≠ "method"

instance : DecidablePred PassedOver
  | .start tag | .empty tag => inferInstanceAs (Decidable (tag.name ∉ partNames))
  | .close name => inferInstanceAs (Decidable (name ≠ "method"))

/-- No element in `e`, itself included, is a part by name, and no pair of tags in it is a method. -/
def Inert (e : Element) : Prop := ∀ event ∈ e.events, PassedOver event

/-- The number of parts a method has. -/
def partCount (m : Member) : Nat := m.parameters.length + m.exceptions.length + m.annotations.length

theorem methodChild_other {m : Member} {tag : Tag} (h : tag.name ∉ partNames) :
    methodChild m tag = .ok m := by
  unfold methodChild
  split
  · next hname => exact absurd (by rw [hname]; decide) h
  · next hname => exact absurd (by rw [hname]; decide) h
  · next hname => exact absurd (by rw [hname]; decide) h
  · rfl

/-- A part that is taken in is one part more. -/
theorem partCount_methodChild {m m' : Member} {tag : Tag} (h : methodChild m tag = .ok m')
    (hname : tag.name ∈ partNames) : partCount m' = partCount m + 1 := by
  unfold methodChild at h
  split at h
  · obtain ⟨parameter, -, h⟩ := bind_eq_ok.mp h
    cases h
    simp only [partCount, List.length_append, List.length_singleton]
    omega
  · obtain ⟨value, -, h⟩ := bind_eq_ok.mp h
    obtain ⟨type, -, h⟩ := bind_eq_ok.mp h
    cases h
    simp only [partCount, List.length_append, List.length_singleton]
    omega
  · obtain ⟨text, -, h⟩ := bind_eq_ok.mp h
    cases h
    simp only [partCount, List.length_append, List.length_singleton]
    omega
  · next hparam hthrows hmarking =>
    simp only [partNames, List.mem_cons, List.not_mem_nil, or_false] at hname
    rcases hname with hname | hname | hname
    · exact absurd hname hparam
    · exact absurd hname hthrows
    · exact absurd hname hmarking

namespace Reading

variable {r r' : Reading} {d : Descriptor} {m : Member} {event : Event} {events : List Event}

theorem step_passedOver (hfocus : r.focus = .method d m) (h : PassedOver event) :
    r.step event = .ok r := by
  cases event with
  | start tag | empty tag =>
    simp only [step_method hfocus, methodChild_other h]
    rw [ok_bind, ← hfocus]
  | close name =>
    have hname : name ≠ "method" := h
    simp only [step_method hfocus, beq_eq_false_iff_ne.mpr hname]
    rfl

theorem run_passedOver (hfocus : r.focus = .method d m) (h : ∀ event ∈ events, PassedOver event) :
    r.run events = .ok r := by
  induction events with
  | nil => rfl
  | cons event events ih =>
    rw [List.forall_mem_cons] at h
    rw [run_cons, step_passedOver hfocus h.1, ok_bind]
    exact ih h.2

/-- **As long as the method does not end, every event that is not passed over is a part more.** -/
theorem run_inside (hfocus : r.focus = .method d m) (hends : .close "method" ∉ events)
    (hrun : r.run events = .ok r') :
    ∃ m', r' = { r with focus := .method d m' } ∧
      partCount m' = partCount m + events.countP (¬ PassedOver ·) := by
  induction events generalizing r m with
  | nil =>
    cases hrun
    exact ⟨m, by rw [← hfocus], rfl⟩
  | cons event events ih =>
    rw [List.mem_cons, not_or] at hends
    rw [run_cons, bind_eq_ok] at hrun
    obtain ⟨next, hstep, hrun⟩ := hrun
    by_cases hpassed : PassedOver event
    · rw [step_passedOver hfocus hpassed] at hstep
      cases hstep
      rw [List.countP_cons_of_neg (by simpa using hpassed)]
      exact ih hfocus hends.2 hrun
    · rw [List.countP_cons_of_pos (by simpa using hpassed)]
      cases event with
      | start tag | empty tag =>
        -- a tag that is not passed over is a part
        have hname : tag.name ∈ partNames := not_not.mp hpassed
        simp only [step_method hfocus] at hstep
        obtain ⟨m₁, hpart, hm⟩ := bind_eq_ok.mp hstep
        cases hm
        obtain ⟨m', rfl, hcount⟩ := ih rfl hends.2 hrun
        refine ⟨m', rfl, ?_⟩
        rw [hcount, partCount_methodChild hpart hname]
        omega
      | close name =>
        obtain rfl : name = "method" := not_not.mp hpassed
        exact absurd rfl hends.1

/-! ## Documents in the format -/

/-- What every element keeps up, a sequence of elements keeps up. -/
theorem run_eventsOf {P : Reading → Prop} {es : List Element}
    (helement : ∀ e ∈ es, ∀ {r r' : Reading}, P r → r.run e.events = .ok r' → P r')
    (hstart : P r) (hrun : r.run (eventsOf es) = .ok r') : P r' := by
  induction es generalizing r with
  | nil =>
    cases hrun
    exact hstart
  | cons e es ih =>
    rw [List.forall_mem_cons] at helement
    rw [eventsOf, run_append, bind_eq_ok] at hrun
    obtain ⟨next, hfirst, hrest⟩ := hrun
    exact ih helement.2 (helement.1 hstart hfirst) hrest

/-- The reader is in the type. -/
def InType (r : Reading) : Prop := ∃ d, r.focus = .type d

/-- The reader is in a method. -/
def InMethod (r : Reading) : Prop := ∃ d m, r.focus = .method d m

theorem InMethod.part {e : Element} (h : IsPart e) (hr : r.InMethod)
    (hrun : r.run e.events = .ok r') : r'.InMethod := by
  obtain ⟨d, m, hfocus⟩ := hr
  have hname : e.tag.name ≠ "method" := by
    intro heq
    exact absurd h.name (by rw [heq]; decide)
  rw [run_leaf h.leaf fun _ _ _ => hname] at hrun
  simp only [step_method hfocus] at hrun
  obtain ⟨m', -, hm⟩ := bind_eq_ok.mp hrun
  cases hm
  exact ⟨d, m', rfl⟩

theorem InType.start_method {tag : Tag} (hname : tag.name = "method") (hr : r.InType)
    (hstep : r.step (.start tag) = .ok r') : r'.InMethod := by
  obtain ⟨d, hfocus⟩ := hr
  simp only [step_type hfocus, typeChild, hname] at hstep
  obtain ⟨m, -, hm⟩ := bind_eq_ok.mp hstep
  cases hm
  exact ⟨d, m, rfl⟩

theorem InMethod.close_method (hr : r.InMethod) (hstep : r.step (.close "method") = .ok r') :
    r'.InType := by
  obtain ⟨d, m, hfocus⟩ := hr
  simp only [step_method hfocus] at hstep
  cases hstep
  exact ⟨withMember d m, rfl⟩

theorem InType.declaration {e : Element} (h : IsDeclaration e) (hr : r.InType)
    (hrun : r.run e.events = .ok r') : r'.InType := by
  obtain ⟨d, hfocus⟩ := hr
  have hempty : r.run e.events = r.step (.empty e.tag) → r'.InType := by
    intro hleaf
    rw [hleaf] at hrun
    simp only [step_type hfocus] at hrun
    rcases typeChild_cases hrun with ⟨d', name, -, rfl⟩ | ⟨m, -, -, rfl⟩ | rfl
    · exact ⟨d', rfl⟩
    · exact ⟨withMember d m, rfl⟩
    · exact ⟨d, hfocus⟩
  have hnomethod : ∀ d' m, r.focus = .method d' m → e.tag.name ≠ "method" := by
    intro d' m hmethod
    rw [hfocus] at hmethod
    cases hmethod
  cases h with
  | supertype hname hleaf => exact hempty (run_leaf hleaf hnomethod)
  | method hname hparts =>
    cases e with
    | single tag => exact hempty (run_singleton _)
    | paired tag children =>
      have hname : tag.name = "method" := hname
      rw [Element.events, run_cons, bind_eq_ok] at hrun
      obtain ⟨opened, hopen, hrun⟩ := hrun
      rw [run_append, bind_eq_ok, hname] at hrun
      obtain ⟨filled, hparts', hclose⟩ := hrun
      have hin : filled.InMethod :=
        run_eventsOf (fun part hpart _ _ => InMethod.part (hparts part hpart))
          (InType.start_method hname ⟨d, hfocus⟩ hopen) hparts'
      rw [run_singleton] at hclose
      exact hin.close_method hclose

theorem documentFocus_root {tag : Tag} (hname : tag.name = "typeLibrary")
    (hstep : ({} : Reading).step (.start tag) = .ok r) : r.focus = .document := by
  simp only [step_mk_document, documentChild, hname] at hstep
  cases hstep
  rfl

theorem InType.of_start {tag : Tag} (hname : tag.name = "type") (hr : r.focus = .document)
    (hstep : r.step (.start tag) = .ok r') : r'.InType := by
  simp only [step_document hr, documentChild, hname] at hstep
  obtain ⟨d, -, hd⟩ := bind_eq_ok.mp hstep
  cases hd
  exact ⟨d, rfl⟩

/-- A type ends where it has begun, if what it holds keeps the reader in it. -/
theorem documentFocus_type {e : Element} (hname : e.tag.name = "type")
    (hchildren : ∀ child ∈ e.children, ∀ {r r' : Reading}, r.InType →
      r.run child.events = .ok r' → r'.InType)
    (hr : r.focus = .document) (hrun : r.run e.events = .ok r') : r'.focus = .document := by
  cases e with
  | single tag =>
    rw [Element.events, run_singleton] at hrun
    simp only [step_document hr] at hrun
    exact focus_of_within_nil (Within.documentChild hrun hr)
  | paired tag children =>
    rw [Element.events, run_cons, bind_eq_ok] at hrun
    obtain ⟨opened, hopen, hrun⟩ := hrun
    rw [run_append, bind_eq_ok] at hrun
    obtain ⟨filled, hfill, hclose⟩ := hrun
    obtain ⟨d, hfocus⟩ : filled.InType :=
      run_eventsOf hchildren (InType.of_start hname hr hopen) hfill
    rw [run_singleton] at hclose
    simp only [step_type hfocus] at hclose
    obtain ⟨L, L', -, -, rfl⟩ := addType_eq_ok_iff.mp hclose
    rfl

theorem documentFocus_typeElement {e : Element} (h : IsTypeElement e) (hr : r.focus = .document)
    (hrun : r.run e.events = .ok r') : r'.focus = .document :=
  documentFocus_type h.name (fun child hchild _ _ => InType.declaration (h.declarations child hchild))
    hr hrun

/-- At a place inside a method the reader is in that method. -/
theorem inMethod_of_eventsBefore {p : MethodPlace} (h : p.InFormat)
    (hrun : ({} : Reading).run p.eventsBefore = .ok r) : r.InMethod := by
  have hroot : p.root.name = "typeLibrary" := h.library.name
  have htypes : ∀ e ∈ p.typesBefore, IsTypeElement e := fun e he =>
    h.library.types e (List.mem_append_left _ he)
  have htype := h.library.types _ (List.mem_append_right _ List.mem_cons_self)
  have hdeclarations : ∀ e ∈ p.declarationsBefore, IsDeclaration e := fun e he =>
    htype.declarations e (List.mem_append_left _ he)
  have hparts : ∀ e ∈ p.partsBefore, IsPart e := by
    cases htype.declarations _ (List.mem_append_right _ List.mem_cons_self) with
    | supertype hname _ =>
      have hname : p.method.name = "extends" ∨ p.method.name = "implements" := hname
      simp [h.method] at hname
    | method _ hparts => exact fun e he => hparts e (by simp [Element.children, he])
  -- the run stops behind each tag on the way to the place, and behind what stands before the tag
  rw [MethodPlace.eventsBefore, run_cons, bind_eq_ok] at hrun
  obtain ⟨r₁, hopen, hrun⟩ := hrun
  rw [run_append, bind_eq_ok] at hrun
  obtain ⟨r₂, hbefore, hrun⟩ := hrun
  rw [run_cons, bind_eq_ok] at hrun
  obtain ⟨r₃, hstart, hrun⟩ := hrun
  rw [run_append, bind_eq_ok] at hrun
  obtain ⟨r₄, hdeclared, hrun⟩ := hrun
  rw [run_cons, bind_eq_ok] at hrun
  obtain ⟨r₅, hmethod, hrun⟩ := hrun
  have h₁ : r₁.focus = .document := documentFocus_root hroot hopen
  have h₂ : r₂.focus = .document :=
    run_eventsOf (P := (·.focus = .document))
      (fun e he _ _ => documentFocus_typeElement (htypes e he)) h₁ hbefore
  have h₃ : r₃.InType := InType.of_start htype.name h₂ hstart
  have h₄ : r₄.InType :=
    run_eventsOf (fun e he _ _ => InType.declaration (hdeclarations e he)) h₃ hdeclared
  have h₅ : r₅.InMethod := InType.start_method h.method h₄ hmethod
  exact run_eventsOf (fun e he _ _ => InMethod.part (hparts e he)) h₅ hrun

end Reading

/-! ## Inert elements -/

/-- What is read of a document with some elements at a place. -/
theorem ofDocument_fill {p : MethodPlace} {es : List Element} {text : String}
    (h : Written [p.fill es] text.toList) :
    ofDocument text = ({} : Reading).run p.eventsBefore >>= fun r =>
      r.run (eventsOf es) >>= fun r' => r'.run p.eventsAfter >>= Reading.finish := by
  rw [ofDocument_written h, eventsOf_singleton, MethodPlace.events_fill, Reading.run_append,
    bind_assoc]
  simp only [Reading.run_append, bind_assoc]

/-- An inert element leaves no trace, wherever it stands in a method. -/
theorem ofDocument_inert {e : Element} (he : Inert e) {p : MethodPlace} (hp : p.InFormat)
    {text text' : String} (h : Written [p.fill []] text.toList)
    (h' : Written [p.fill [e]] text'.toList) : ofDocument text' = ofDocument text := by
  rw [ofDocument_fill h, ofDocument_fill h']
  cases hbefore : ({} : Reading).run p.eventsBefore with
  | error error => rfl
  | ok r =>
    obtain ⟨d, m, hfocus⟩ := Reading.inMethod_of_eventsBefore hp hbefore
    rw [ok_bind, ok_bind, eventsOf_singleton, Reading.run_passedOver hfocus he]
    rfl

/-! ## All other elements -/

/-- An element that makes no difference in any method of any document. -/
def Unnoticed (e : Element) : Prop :=
  ∀ p : MethodPlace, p.InFormat → ∀ text text' : String, Written [p.fill []] text.toList →
    Written [p.fill [e]] text'.toList → ofDocument text' = ofDocument text

/-- A place in a method without parts, in a document with some declarations behind it. -/
def emptyMethod (more : List Element) : MethodPlace where
  root := ⟨"typeLibrary", []⟩
  typesBefore := []
  type := ⟨"type", plainText [("name".toList, "a.B".toList)]⟩
  declarationsBefore := []
  method := ⟨"method", plainText [("name".toList, "c".toList)]⟩
  partsBefore := []
  partsAfter := []
  declarationsAfter := more
  typesAfter := []

/-- A second method. -/
def furtherMethod : Element := .single ⟨"method", plainText [("name".toList, "d".toList)]⟩

/-- The reader in the method without parts. -/
def inEmptyMethod : Reading :=
  ⟨some Library.empty, .method { name := "a.B" } { name := "c", returns := .primitive .void }⟩

theorem wellFormed_furtherMethod : furtherMethod.WellFormed :=
  .single (wellFormed_plain (by decide) (by decide) (by decide))

theorem wellFormed_emptyMethod {es more : List Element} (hes : ∀ e ∈ es, e.WellFormed)
    (hmore : ∀ e ∈ more, e.WellFormed) : ((emptyMethod more).fill es).WellFormed := by
  have hroot : (emptyMethod more).root.WellFormed := wellFormed_bare (by decide)
  have htype : (emptyMethod more).type.WellFormed :=
    wellFormed_plain (by decide) (by decide) (by decide)
  have hmethod : (emptyMethod more).method.WellFormed :=
    wellFormed_plain (by decide) (by decide) (by decide)
  have hparts : ∀ e ∈ [] ++ es ++ [], e.WellFormed := by rwa [List.nil_append, List.append_nil]
  have hdeclarations := List.forall_mem_cons.mpr ⟨Element.WellFormed.paired hmethod hparts, hmore⟩
  exact .paired hroot (List.forall_mem_singleton.mpr (.paired htype hdeclarations))

theorem inFormat_emptyMethod {more : List Element} (h : ∀ e ∈ more, IsDeclaration e) :
    (emptyMethod more).InFormat := by
  have hmethod : IsDeclaration (.paired (emptyMethod more).method []) :=
    .method rfl (List.forall_mem_nil _)
  have htype : IsTypeElement (.paired (emptyMethod more).type
      (.paired (emptyMethod more).method [] :: more)) :=
    ⟨rfl, List.forall_mem_cons.mpr ⟨hmethod, h⟩⟩
  exact ⟨rfl, rfl, List.forall_mem_singleton.mpr htype⟩

theorem run_eventsBefore_emptyMethod (more : List Element) :
    ({} : Reading).run (emptyMethod more).eventsBefore = .ok inEmptyMethod := by
  have hmore : (emptyMethod more).eventsBefore = (emptyMethod []).eventsBefore := rfl
  rw [hmore]
  decide +kernel

/-- An element that makes no difference makes none in the method without parts. -/
theorem Unnoticed.in_emptyMethod {e : Element} (h : Unnoticed e) (he : e.WellFormed)
    {more : List Element} (hmore : ∀ declaration ∈ more, declaration.WellFormed)
    (hformat : ∀ declaration ∈ more, IsDeclaration declaration) :
    (inEmptyMethod.run e.events >>= fun r =>
        r.run (emptyMethod more).eventsAfter >>= Reading.finish)
      = inEmptyMethod.run (emptyMethod more).eventsAfter >>= Reading.finish := by
  have hwithout := written_documentOf (wellFormed_emptyMethod (List.forall_mem_nil _) hmore)
  have hwith := written_documentOf
    (wellFormed_emptyMethod (List.forall_mem_singleton.mpr he) hmore)
  have heq := h _ (inFormat_emptyMethod hformat) _ _ hwithout hwith
  rw [ofDocument_fill hwithout, ofDocument_fill hwith, run_eventsBefore_emptyMethod, ok_bind,
    ok_bind, eventsOf_singleton] at heq
  exact heq

/-! ### A part too many -/

/-- The document with one method is read with that method, whatever has been read of it. -/
theorem finish_emptyMethod (m : Member) :
    ((Reading.mk (some Library.empty) (.method { name := "a.B" } m)).run
        (emptyMethod []).eventsAfter >>= Reading.finish).map (·.types)
      = .ok [withMember { name := "a.B" } m] := rfl

/-- An element that makes no difference and does not end the method has no parts. -/
theorem Unnoticed.inert {e : Element} (h : Unnoticed e) (he : e.WellFormed)
    (hends : .close "method" ∉ e.events) : Inert e := by
  have heq := h.in_emptyMethod he (List.forall_mem_nil _) (List.forall_mem_nil _)
  have hplain := finish_emptyMethod { name := "c", returns := .primitive .void }
  cases hrun : inEmptyMethod.run e.events with
  | error error =>
    -- a part that cannot be read would be noticed as well
    rw [hrun] at heq
    rw [← inEmptyMethod, ← heq] at hplain
    cases hplain
  | ok r =>
    obtain ⟨m', rfl, hcount⟩ := Reading.run_inside rfl hends hrun
    rw [hrun, ok_bind] at heq
    have htypes :=
      calc (Except.ok [withMember { name := "a.B" } m'] : Except DocumentError (List Descriptor))
          = _ := (finish_emptyMethod m').symm
        _ = _ := congrArg (Except.map (·.types)) heq
        _ = .ok [withMember _ _] := hplain
    -- the members are the same, and so are their parts
    obtain rfl : m' = { name := "c", returns := .primitive .void } := by
      simpa [withMember] using htypes
    have hnone : e.events.countP (¬ PassedOver ·) = 0 := by omega
    intro event hevent
    have := List.countP_eq_zero.mp hnone event hevent
    simpa using this

/-! ### A method that ends too early -/

/-- Once the method has ended inside `e`, the reader is further out than the text for good: behind
the method's own end tag it is between types. -/
theorem Reading.focus_of_ends {e : Element} {r r' : Reading} {d : Descriptor} {m : Member}
    (hfocus : r.focus = .method d m) (hends : .close "method" ∈ e.events)
    (hrun : r.run (e.events ++ [.close "method"]) = .ok r') : r'.focus = .document := by
  obtain ⟨before, after, hevents, hfirst⟩ := List.eq_append_cons_of_mem hends
  -- the elements that are open in `e` where the reader leaves the method
  have hbalanced : openAfter [] (before ++ .close "method" :: after) = some [] := by
    rw [← hevents]
    exact openAfter_events e []
  rw [openAfter_append] at hbalanced
  obtain ⟨opened, -, hbalanced⟩ := Option.bind_eq_some_iff.mp hbalanced
  obtain ⟨inner, -, hrest⟩ := openAfter_cons hbalanced
  rw [hevents, List.append_assoc, run_append, bind_eq_ok] at hrun
  obtain ⟨r₁, hbefore, hrun⟩ := hrun
  rw [List.cons_append, run_cons, bind_eq_ok] at hrun
  obtain ⟨r₂, hclose, hrun⟩ := hrun
  obtain ⟨m', rfl, -⟩ := run_inside hfocus hfirst hbefore
  have hout : Within (inner ++ ["method"]) r₂.focus := by
    simp only [step_mk_method] at hclose
    cases hclose
    show inner ++ ["method"] ≠ []
    simp
  have hopen : openAfter (inner ++ ["method"]) (after ++ [.close "method"]) = some [] := by
    rw [openAfter_append, openAfter_frame hrest, List.nil_append, Option.bind_some, openAfter_close,
      openAfter_nil]
  exact focus_of_within_nil (hout.run hopen hrun)

/-- Between types no end tag counts, and a method is an unknown element. -/
theorem Reading.run_behind {r : Reading} (hfocus : r.focus = .document) :
    r.run ((emptyMethod []).eventsAfter.tail) = .ok r ∧
      r.run ((emptyMethod [furtherMethod]).eventsAfter.tail) = .ok r := by
  have hclose : ∀ name, r.step (.close name) = .ok r := by
    intro name
    simp only [step_document hfocus]
  have hmethod : r.step (.empty ⟨"method", plainText [("name".toList, "d".toList)]⟩) = .ok r := by
    simp only [step_document hfocus, documentChild]
    rfl
  constructor
  · show r.run [.close _, .close _] = .ok r
    rw [run_cons, hclose, ok_bind, run_singleton, hclose]
  · show r.run [.empty _, .close _, .close _] = .ok r
    rw [run_cons, hmethod, ok_bind, run_cons, hclose, ok_bind, run_singleton, hclose]

/-- **What comes behind a method that has ended too early is lost**: a further method makes no
difference. -/
theorem lost_behind_end {e : Element} (hends : .close "method" ∈ e.events) :
    (inEmptyMethod.run e.events >>= fun r =>
        r.run (emptyMethod [furtherMethod]).eventsAfter >>= Reading.finish)
      = inEmptyMethod.run e.events >>= fun r =>
          r.run (emptyMethod []).eventsAfter >>= Reading.finish := by
  cases hrun : inEmptyMethod.run e.events with
  | error error => rfl
  | ok r =>
    have hafter : ∀ more, (emptyMethod more).eventsAfter
        = .close "method" :: (emptyMethod more).eventsAfter.tail := fun _ => rfl
    rw [ok_bind, ok_bind, hafter, hafter [], Reading.run_cons, Reading.run_cons]
    cases hclose : r.step (.close "method") with
    | error error => rfl
    | ok r' =>
      have hwhole : inEmptyMethod.run (e.events ++ [.close "method"]) = .ok r' := by
        rw [Reading.run_append, hrun, ok_bind, Reading.run_singleton, hclose]
      have hfocus : r'.focus = .document := Reading.focus_of_ends rfl hends hwhole
      rw [ok_bind, ok_bind, (Reading.run_behind hfocus).1, (Reading.run_behind hfocus).2]

theorem Unnoticed.not_ends {e : Element} (h : Unnoticed e) (he : e.WellFormed) :
    .close "method" ∉ e.events := by
  intro hends
  have hformat : ∀ declaration ∈ [furtherMethod], IsDeclaration declaration :=
    List.forall_mem_singleton.mpr (.method rfl (List.forall_mem_nil _))
  have hwritten : ∀ declaration ∈ [furtherMethod], declaration.WellFormed :=
    List.forall_mem_singleton.mpr wellFormed_furtherMethod
  have hone := h.in_emptyMethod he (List.forall_mem_nil _) (List.forall_mem_nil _)
  have htwo := h.in_emptyMethod he hwritten hformat
  -- with the element, the further method makes no difference; without it, it does
  rw [lost_behind_end hends, hone] at htwo
  revert htwo
  decide +kernel

/-- **An element can be put into a method, at any place of any document, without a change of what is
read exactly if the reader passes over all of it.** -/
theorem unnoticed_iff_inert {e : Element} (he : e.WellFormed) : Unnoticed e ↔ Inert e := by
  constructor
  · intro h
    exact h.inert he (h.not_ends he)
  · intro hinert p hp text text' h h'
    exact ofDocument_inert hinert hp h h'

/-! ### A remark, and a remark that mentions a parameter -/

/-- A remark with a note in it. -/
def remark : Element := .paired ⟨"doc", []⟩ [.single ⟨"note", []⟩]

/-- A remark with a parameter in it. -/
def remarkOnParameter : Element :=
  .paired ⟨"doc", []⟩
    [.single ⟨"param", plainText [("name".toList, "x".toList), ("type".toList, "int".toList)]⟩]

theorem unnoticed_iff_inert_remark : remark.WellFormed ∧ Unnoticed remark := by
  have hwritten : remark.WellFormed :=
    .paired (wellFormed_bare (by decide))
      (List.forall_mem_singleton.mpr (.single (wellFormed_bare (by decide))))
  refine ⟨hwritten, (unnoticed_iff_inert hwritten).mpr ?_⟩
  unfold Inert
  decide

/-- The parameter in the remark is read as a parameter of the method. -/
theorem foreign_content_is_read :
    ∃ p : MethodPlace, p.InFormat ∧ remarkOnParameter.tag.name ∉ partNames ∧
      Written [p.fill []] (documentOf (p.fill [])).toList ∧
      Written [p.fill [remarkOnParameter]] (documentOf (p.fill [remarkOnParameter])).toList ∧
      (ofDocument (documentOf (p.fill []))).map (·.types) =
        .ok [{ name := "a.B", members := [⟨"c", .primitive .void, [], [], [], false, false⟩] }] ∧
      (ofDocument (documentOf (p.fill [remarkOnParameter]))).map (·.types) =
        .ok [{ name := "a.B", members :=
          [⟨"c", .primitive .void, [⟨"x", .primitive .int⟩], [], [], false, false⟩] }] := by
  have hremark : remarkOnParameter.WellFormed :=
    .paired (wellFormed_bare (by decide)) (List.forall_mem_singleton.mpr
      (.single (wellFormed_plain (by decide) (by decide) (by decide))))
  have hnone : ∀ e ∈ ([] : List Element), e.WellFormed := List.forall_mem_nil _
  refine ⟨emptyMethod [], inFormat_emptyMethod (List.forall_mem_nil _), by decide, ?_, ?_, ?_, ?_⟩
  · exact written_documentOf (wellFormed_emptyMethod hnone hnone)
  · exact written_documentOf
      (wellFormed_emptyMethod (List.forall_mem_singleton.mpr hremark) hnone)
  · decide +kernel
  · decide +kernel

end Stubwright.Library

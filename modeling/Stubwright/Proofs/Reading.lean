import Stubwright.Library.Document
import Stubwright.Proofs.Validation

/-!
# What one event does to a reading

`Reading.step` is the whole reader: a document is read by folding it over the events. This file says
once what a step does and what it can end in, so that what a reading keeps up can be shown without
looking at the step again:

* `step_document`, `step_type`, `step_method`, `step_skipping` — what an event does in each of the
  four places where the reader can be.
* `documentChild_cases`, `typeChild_cases`, `methodStep_cases`, `skippingStep_cases` — what can
  come of it there.
* `addType_eq_ok_iff` — what happens at the end of a type.
* `step_start_congr`, `step_empty_congr` — a tag counts only by its name and its attributes.
-/

namespace Stubwright.Library

open Java Markup

@[simp] theorem ok_bind {α β ε : Type} (a : α) (f : α → Except ε β) :
    (Except.ok a >>= f) = f a := rfl

/-! ## Runs -/

namespace Reading

/-- Takes in some events. -/
def run (r : Reading) (events : List Event) : Except DocumentError Reading :=
  events.foldlM step r

variable {r r' : Reading} {d : Descriptor} {m : Member} {tag : Tag} {opens : Bool}

@[simp] theorem run_nil : r.run [] = .ok r := rfl

theorem run_cons (event : Event) (events : List Event) :
    r.run (event :: events) = r.step event >>= fun r' => r'.run events :=
  List.foldlM_cons

theorem run_append (first later : List Event) :
    r.run (first ++ later) = r.run first >>= fun r' => r'.run later :=
  List.foldlM_append

@[simp] theorem run_singleton (event : Event) : r.run [event] = r.step event := by
  rw [run_cons]
  cases r.step event <;> rfl

/-! ## What an event does

Said once for a reading of two given parts, and once for a reading that is known to be at such a
place. -/

section

variable (library? : Option Library) (event : Event)

/-- Between types, tags are taken in and end tags are passed over. -/
theorem step_mk_document :
    (Reading.mk library? .document).step event = match event with
      | .start tag => (Reading.mk library? .document).documentChild true tag
      | .empty tag => (Reading.mk library? .document).documentChild false tag
      | .close _ => .ok ⟨library?, .document⟩ := by
  cases event <;> rfl

/-- An end tag inside a type ends it. -/
theorem step_mk_type (d : Descriptor) :
    (Reading.mk library? (.type d)).step event = match event with
      | .start tag => (Reading.mk library? (.type d)).typeChild d true tag
      | .empty tag => (Reading.mk library? (.type d)).typeChild d false tag
      | .close _ => (Reading.mk library? (.type d)).addType d := by
  cases event <;> rfl

/-- Inside a method the reader does not tell whether a tag opens its element, and it ends the method
at an end tag of that name. -/
theorem step_mk_method (d : Descriptor) (m : Member) :
    (Reading.mk library? (.method d m)).step event = match event with
      | .start tag | .empty tag =>
        methodChild m tag >>= fun m' => .ok ⟨library?, .method d m'⟩
      | .close name =>
        .ok (if name == "method" then ⟨library?, .type (withMember d m)⟩
          else ⟨library?, .method d m⟩) := by
  cases event <;> rfl

/-- Where the reader is once an element at such a depth of an unknown one has ended. -/
def afterEnd (d? : Option Descriptor) : Nat → Focus
  | 0 => afterSkipped d?
  | inner + 1 => .skipping d? inner

/-- Inside an unknown element the reader counts. -/
theorem step_mk_skipping (d? : Option Descriptor) (depth : Nat) :
    (Reading.mk library? (.skipping d? depth)).step event = match event with
      | .start _ => .ok ⟨library?, .skipping d? (depth + 1)⟩
      | .empty _ => .ok ⟨library?, .skipping d? depth⟩
      | .close _ => .ok ⟨library?, afterEnd d? depth⟩ := by
  cases event with
  | start tag => rfl
  | empty tag => rfl
  | close name => cases depth <;> rfl

end

theorem step_document (h : r.focus = .document) (event : Event) :
    r.step event = match event with
      | .start tag => r.documentChild true tag
      | .empty tag => r.documentChild false tag
      | .close _ => .ok r := by
  obtain ⟨library?, focus⟩ := r
  obtain rfl : focus = .document := h
  exact step_mk_document library? event

theorem step_type (h : r.focus = .type d) (event : Event) :
    r.step event = match event with
      | .start tag => r.typeChild d true tag
      | .empty tag => r.typeChild d false tag
      | .close _ => r.addType d := by
  obtain ⟨library?, focus⟩ := r
  obtain rfl : focus = .type d := h
  exact step_mk_type library? event d

theorem step_method (h : r.focus = .method d m) (event : Event) :
    r.step event = match event with
      | .start tag | .empty tag =>
        methodChild m tag >>= fun m' => .ok { r with focus := .method d m' }
      | .close name =>
        .ok (if name == "method" then { r with focus := .type (withMember d m) } else r) := by
  obtain ⟨library?, focus⟩ := r
  obtain rfl : focus = .method d m := h
  exact step_mk_method library? event d m

theorem step_skipping {d? : Option Descriptor} {depth : Nat} (h : r.focus = .skipping d? depth)
    (event : Event) :
    r.step event = match event with
      | .start _ => .ok { r with focus := .skipping d? (depth + 1) }
      | .empty _ => .ok r
      | .close _ => .ok { r with focus := afterEnd d? depth } := by
  obtain ⟨library?, focus⟩ := r
  obtain rfl : focus = .skipping d? depth := h
  exact step_mk_skipping library? event d? depth

/-! ## Adding a type -/

theorem addType_eq_ok_iff :
    r.addType d = .ok r' ↔
      ∃ L L', r.library? = some L ∧ L.add d = .ok L' ∧ r' = ⟨some L', .document⟩ := by
  unfold addType
  cases r.library? with
  | none => simp
  | some L =>
    dsimp only
    rw [bind_eq_ok]
    constructor
    · rintro ⟨L', hadd, h⟩
      cases h
      exact ⟨L, L', rfl, hadd, rfl⟩
    · rintro ⟨_, L', hL, hadd, rfl⟩
      cases hL
      exact ⟨L', hadd, rfl⟩

end Reading

theorem eq_of_types {L L' : Library} (h : L.types = L'.types) : L = L' := by
  cases L
  cases L'
  cases h
  rfl

/-- A type is added at the end, as long as its name is free. -/
theorem add_eq_ok_iff {L L' : Library} {d : Descriptor} :
    L.add d = .ok L' ↔ d.name ∉ L.names ∧ L'.types = L.types ++ [d] := by
  unfold add
  by_cases hd : L.declares d.name = true
  · rw [dif_pos hd]
    constructor
    · intro h
      cases h
    · rintro ⟨hfree, -⟩
      exact absurd (declares_iff.mp hd) hfree
  · rw [dif_neg hd, Except.ok.injEq]
    constructor
    · rintro rfl
      exact ⟨fun h => hd (declares_iff.mpr h), rfl⟩
    · rintro ⟨-, htypes⟩
      exact eq_of_types htypes.symm

/-- There is a library with the type added, as long as its name is free. -/
theorem exists_add {L : Library} {d : Descriptor} (h : d.name ∉ L.names) :
    ∃ L', L.add d = .ok L' := by
  unfold add
  rw [dif_neg (fun hd => h (declares_iff.mp hd))]
  exact ⟨_, rfl⟩

namespace Reading

variable {r r' : Reading} {d : Descriptor} {m : Member} {tag : Tag} {opens : Bool}

/-! ## The end of the text -/

/-- The type that is open at the end of the text, as far as it has been read. -/
def unfinished? : Focus → Option Descriptor
  | .document => none
  | .type d => some d
  | .method d m => some (withMember d m)
  | .skipping d? _ => d?

/-- The reading with the open type added. -/
def settle (r : Reading) : Except DocumentError Reading :=
  match unfinished? r.focus with
  | none => .ok r
  | some d => r.addType d

/-- The library of a reading that is over. -/
def result (r : Reading) : Except DocumentError Library :=
  match r.library? with
  | none => .error missingRoot
  | some L => .ok L

theorem finish_eq (r : Reading) : r.finish = r.settle >>= result := by
  unfold finish settle
  cases r.focus with
  | document => rfl
  | type d => rfl
  | method d m => rfl
  | skipping d? depth => cases d? <;> rfl

theorem result_eq_ok_iff {L : Library} : r.result = .ok L ↔ r.library? = some L := by
  unfold result
  cases r.library? <;> simp

/-! ## Tags -/

/-- What a tag between types can do. -/
theorem documentChild_cases (h : r.documentChild opens tag = .ok r') :
    (tag.name = "typeLibrary" ∧ r' = { r with library? := some Library.empty }) ∨
    (∃ d, tag.name = "type" ∧ typeOf tag = .ok d ∧
      (if opens then r' = { r with focus := .type d } else r.addType d = .ok r')) ∨
    (tag.name ≠ "typeLibrary" ∧ tag.name ≠ "type" ∧
      r' = if opens then { r with focus := .skipping none 0 } else r) := by
  unfold documentChild at h
  split at h
  · next hname =>
    cases h
    exact .inl ⟨hname, rfl⟩
  · next hname =>
    obtain ⟨d, hd, h⟩ := bind_eq_ok.mp h
    refine .inr (.inl ⟨d, hname, hd, ?_⟩)
    cases opens with
    | true =>
      cases h
      rfl
    | false => exact h
  · next hroot htype =>
    cases h
    exact .inr (.inr ⟨hroot, htype, rfl⟩)

/-- What a tag inside a type can do. -/
theorem typeChild_cases (h : r.typeChild d opens tag = .ok r') :
    (∃ d' name, d' = withSupertype d name ∧
      r' = { r with focus := if opens then .skipping (some d') 0 else .type d' }) ∨
    (∃ m, tag.name = "method" ∧ methodOf tag = .ok m ∧
      r' = { r with focus := if opens then .method d m else .type (withMember d m) }) ∨
    r' = if opens then { r with focus := .skipping (some d) 0 } else r := by
  unfold typeChild at h
  dsimp only at h
  split at h
  · obtain ⟨name, -, h⟩ := bind_eq_ok.mp h
    cases h
    exact .inl ⟨_, name, rfl, rfl⟩
  · obtain ⟨name, -, h⟩ := bind_eq_ok.mp h
    cases h
    exact .inl ⟨_, name, rfl, rfl⟩
  · next hname =>
    obtain ⟨m, hm, h⟩ := bind_eq_ok.mp h
    cases h
    exact .inr (.inl ⟨m, hname, hm, rfl⟩)
  · cases h
    exact .inr (.inr rfl)

/-! ## Inside a method and inside an unknown element -/

/-- What an event inside a method can do. -/
theorem methodStep_cases {event : Event} (hfocus : r.focus = .method d m)
    (h : r.step event = .ok r') :
    (∃ tag m', (event = .start tag ∨ event = .empty tag) ∧ methodChild m tag = .ok m' ∧
      r' = { r with focus := .method d m' }) ∨
    (event = .close "method" ∧ r' = { r with focus := .type (withMember d m) }) ∨
    (∃ name, event = .close name ∧ name ≠ "method" ∧ r' = r) := by
  cases event with
  | start tag =>
    simp only [step_method hfocus] at h
    obtain ⟨m', hm, h⟩ := bind_eq_ok.mp h
    cases h
    exact .inl ⟨tag, m', .inl rfl, hm, rfl⟩
  | empty tag =>
    simp only [step_method hfocus] at h
    obtain ⟨m', hm, h⟩ := bind_eq_ok.mp h
    cases h
    exact .inl ⟨tag, m', .inr rfl, hm, rfl⟩
  | close name =>
    simp only [step_method hfocus, Except.ok.injEq] at h
    split at h
    · next hname =>
      obtain rfl : name = "method" := beq_iff_eq.mp hname
      exact .inr (.inl ⟨rfl, h.symm⟩)
    · next hname =>
      have hname : name ≠ "method" := by simpa using hname
      exact .inr (.inr ⟨name, rfl, hname, h.symm⟩)

/-- What an event inside an unknown element can do. -/
theorem skippingStep_cases {event : Event} {d? : Option Descriptor} {depth : Nat}
    (hfocus : r.focus = .skipping d? depth) (h : r.step event = .ok r') :
    (∃ tag, event = .start tag ∧ r' = { r with focus := .skipping d? (depth + 1) }) ∨
    (∃ tag, event = .empty tag ∧ r' = r) ∨
    (∃ name, event = .close name ∧ depth = 0 ∧ r' = { r with focus := afterSkipped d? }) ∨
    (∃ name inner, event = .close name ∧ depth = inner + 1 ∧
      r' = { r with focus := .skipping d? inner }) := by
  cases event with
  | start tag =>
    simp only [step_skipping hfocus] at h
    cases h
    exact .inl ⟨tag, rfl, rfl⟩
  | empty tag =>
    simp only [step_skipping hfocus] at h
    cases h
    exact .inr (.inl ⟨tag, rfl, rfl⟩)
  | close name =>
    cases depth with
    | zero =>
      simp only [step_skipping hfocus] at h
      cases h
      exact .inr (.inr (.inl ⟨name, rfl, rfl, rfl⟩))
    | succ inner =>
      simp only [step_skipping hfocus] at h
      cases h
      exact .inr (.inr (.inr ⟨name, inner, rfl, rfl, rfl⟩))

/-! ## What a tag counts by -/

/-- Two tags of one name with the same attributes. -/
def Alike (tag tag' : Tag) : Prop := tag.name = tag'.name ∧ tag.attributes = tag'.attributes

theorem attributesOf_congr {tag' : Tag} (h : Alike tag tag') :
    attributesOf tag = attributesOf tag' := by
  rw [attributesOf, attributesOf, h.2]

theorem required_congr {tag' : Tag} (h : Alike tag tag') (element key : String) :
    required element key tag = required element key tag' := by
  rw [required, required, attributesOf_congr h]

theorem documentChild_congr {tag' : Tag} (h : Alike tag tag') :
    r.documentChild opens tag = r.documentChild opens tag' := by
  have htype : typeOf tag = typeOf tag' := by rw [typeOf, typeOf, attributesOf_congr h]
  unfold documentChild
  rw [h.1, htype]

theorem typeChild_congr {tag' : Tag} (h : Alike tag tag') :
    r.typeChild d opens tag = r.typeChild d opens tag' := by
  have hmethod : methodOf tag = methodOf tag' := by rw [methodOf, methodOf, attributesOf_congr h]
  unfold typeChild
  simp only [h.1, hmethod, required_congr h]

theorem methodChild_congr {tag' : Tag} (h : Alike tag tag') :
    methodChild m tag = methodChild m tag' := by
  have hparameter : parameterOf m.parameters.length tag = parameterOf m.parameters.length tag' := by
    rw [parameterOf, parameterOf, attributesOf_congr h]
  unfold methodChild
  simp only [h.1, hparameter, required_congr h]

/-- **A start tag counts only by its name and its attributes.** -/
theorem step_start_congr {tag' : Tag} (h : Alike tag tag') :
    r.step (.start tag) = r.step (.start tag') := by
  cases hf : r.focus with
  | document => simp only [step_document hf, documentChild_congr h]
  | type d => simp only [step_type hf, typeChild_congr h]
  | method d m => simp only [step_method hf, methodChild_congr h]
  | skipping d? depth => simp only [step_skipping hf]

/-- **So does a tag that closes its element at once.** -/
theorem step_empty_congr {tag' : Tag} (h : Alike tag tag') :
    r.step (.empty tag) = r.step (.empty tag') := by
  cases hf : r.focus with
  | document => simp only [step_document hf, documentChild_congr h]
  | type d => simp only [step_type hf, typeChild_congr h]
  | method d m => simp only [step_method hf, methodChild_congr h]
  | skipping d? depth => simp only [step_skipping hf]

end Reading

/-! ## Transcripts -/

theorem ofTranscript_of_fault?_eq_none {t : Transcript} (h : t.fault? = none) :
    ofTranscript t = ({} : Reading).run t.events >>= Reading.finish := by
  unfold ofTranscript
  rw [h]
  rfl

theorem ofTranscript_eq_ok {t : Transcript} {L : Library} (h : ofTranscript t = .ok L) :
    t.fault? = none ∧ ∃ r, ({} : Reading).run t.events = .ok r ∧ r.finish = .ok L := by
  unfold ofTranscript at h
  obtain ⟨r, hrun, h⟩ := bind_eq_ok.mp h
  split at h
  · cases h
  · next hfault => exact ⟨hfault, r, hrun, h⟩

/-- The events of a text count by what they do to every reading. -/
theorem ofTranscript_congr {t t' : Transcript} (hfault : t.fault? = t'.fault?)
    (hrun : ({} : Reading).run t.events = ({} : Reading).run t'.events) :
    ofTranscript t = ofTranscript t' := by
  unfold ofTranscript
  rw [hfault]
  show (({} : Reading).run t.events >>= _) = (({} : Reading).run t'.events >>= _)
  rw [hrun]

end Stubwright.Library

import Stubwright.Proofs.Legality
import Stubwright.Proofs.Reading

/-!
# The types of a document can be read

    attribute value ──typeNamed──▶ JavaType ──methodOf, methodChild──▶ Member ──step──▶ Library

All types in a document are written as names. So whatever a document gives, the types of its members
are ones that some name names (`readableMembers_of_ofDocument`), and a check of the library sees each
of them as it is. The reader keeps this up from event to event, in the types it has added and in
those it is still inside of (`Reading.AllReadable.step`).
-/

namespace Stubwright.Library

open Java Markup

/-- What a fold keeps up at each item, it keeps up to the end. -/
theorem foldlM_keeps {ε α β : Type} {P : β → Prop} {f : β → α → Except ε β}
    (hstep : ∀ b a b', P b → f b a = .ok b' → P b') {items : List α} {b b' : β} (hb : P b)
    (h : items.foldlM f b = .ok b') : P b' := by
  induction items generalizing b with
  | nil =>
    cases h
    exact hb
  | cons a items ih =>
    rw [List.foldlM_cons, bind_eq_ok] at h
    obtain ⟨next, hnext, h⟩ := h
    exact ih (hstep b a next hb hnext) h

/-! ## Elements -/

theorem readable_of_typeNamed {element key value : String} {t : JavaType}
    (h : typeNamed element key value = .ok t) : Readable t := by
  unfold typeNamed at h
  split at h
  · next hread =>
    cases h
    exact ⟨value, hread⟩
  · cases h

/-- A type has no members before its content. -/
theorem members_of_typeOf {tag : Tag} {d : Descriptor} (h : typeOf tag = .ok d) :
    d.members = [] := by
  unfold typeOf at h
  simp only [bind_eq_ok] at h
  obtain ⟨attributes, -, head, -, h⟩ := h
  split at h
  · split at h
    · cases h
      rfl
    · cases h
  · cases h

theorem MethodHead.readable_take {head head' : MethodHead} {a : Attribute}
    (h : Readable head.returns) (htake : head.take a = .ok head') : Readable head'.returns := by
  unfold MethodHead.take at htake
  split at htake
  · cases htake
    exact h
  · obtain ⟨t, ht, htake⟩ := bind_eq_ok.mp htake
    cases htake
    exact readable_of_typeNamed ht
  · obtain ⟨value, -, htake⟩ := bind_eq_ok.mp htake
    cases htake
    exact h
  · obtain ⟨value, -, htake⟩ := bind_eq_ok.mp htake
    cases htake
    exact h
  · cases htake
    exact h

theorem ParameterHead.readable_take {head head' : ParameterHead} {a : Attribute}
    (h : ∀ t ∈ head.type?, Readable t) (htake : head.take a = .ok head') :
    ∀ t ∈ head'.type?, Readable t := by
  unfold ParameterHead.take at htake
  split at htake
  · cases htake
    split
    · exact h
    · exact h
  · obtain ⟨t, ht, htake⟩ := bind_eq_ok.mp htake
    cases htake
    rintro t ⟨⟩
    exact readable_of_typeNamed ht
  · cases htake
    exact h

/-- The types that a member is written with can all be read. -/
def ReadableMember (m : Member) : Prop := ∀ t ∈ m.types, Readable t

/-- So can those of all members of a type. -/
def ReadableType (d : Descriptor) : Prop := ∀ m ∈ d.members, ReadableMember m

theorem readable_of_methodOf {tag : Tag} {m : Member} (h : methodOf tag = .ok m) :
    ReadableMember m := by
  unfold methodOf at h
  obtain ⟨attributes, -, h⟩ := bind_eq_ok.mp h
  obtain ⟨head, hhead, h⟩ := bind_eq_ok.mp h
  have hreturns : Readable head.returns :=
    foldlM_keeps (P := fun head => Readable head.returns)
      (fun _ _ _ => MethodHead.readable_take) (readable_primitive .void) hhead
  split at h
  · cases h
  · cases h
    exact Member.forall_mem_types.mpr ⟨hreturns, List.forall_mem_nil _, List.forall_mem_nil _⟩

theorem readable_of_parameterOf {index : Nat} {tag : Tag} {p : Parameter}
    (h : parameterOf index tag = .ok p) : Readable p.type := by
  unfold parameterOf at h
  obtain ⟨attributes, -, h⟩ := bind_eq_ok.mp h
  obtain ⟨head, hhead, h⟩ := bind_eq_ok.mp h
  have htype : ∀ t ∈ head.type?, Readable t :=
    foldlM_keeps (P := fun head => ∀ t ∈ head.type?, Readable t)
      (fun _ _ _ => ParameterHead.readable_take) (by simp) hhead
  split at h
  · cases h
  · next t ht =>
    cases h
    exact htype t ht

/-- Whatever an element adds to a member, its types can be read. -/
theorem ReadableMember.methodChild {m m' : Member} {tag : Tag} (hm : ReadableMember m)
    (h : methodChild m tag = .ok m') : ReadableMember m' := by
  obtain ⟨hreturns, hparameters, hexceptions⟩ := Member.forall_mem_types.mp hm
  unfold Library.methodChild at h
  split at h
  · obtain ⟨p, hp, h⟩ := bind_eq_ok.mp h
    cases h
    refine Member.forall_mem_types.mpr ⟨hreturns, ?_, hexceptions⟩
    exact List.forall_mem_append.mpr ⟨hparameters, by simpa using readable_of_parameterOf hp⟩
  · obtain ⟨value, -, h⟩ := bind_eq_ok.mp h
    obtain ⟨t, ht, h⟩ := bind_eq_ok.mp h
    cases h
    refine Member.forall_mem_types.mpr ⟨hreturns, hparameters, ?_⟩
    exact List.forall_mem_append.mpr ⟨hexceptions, by simpa using readable_of_typeNamed ht⟩
  · obtain ⟨text, -, h⟩ := bind_eq_ok.mp h
    cases h
    exact hm
  · cases h
    exact hm

theorem ReadableType.withMember {d : Descriptor} {m : Member} (hd : ReadableType d)
    (hm : ReadableMember m) : ReadableType (withMember d m) :=
  List.forall_mem_append.mpr ⟨hd, List.forall_mem_singleton.mpr hm⟩

/-! ## The machine -/

namespace Reading

variable {r r' : Reading} {d : Descriptor} {tag : Tag} {opens : Bool}

/-- What the reader is inside of can be read. -/
def ReadableFocus : Focus → Prop
  | .document => True
  | .type d => ReadableType d
  | .method d m => ReadableType d ∧ ReadableMember m
  | .skipping d? _ => ∀ d ∈ d?, ReadableType d

theorem readableFocus_skipping (hd : ReadableType d) : ReadableFocus (.skipping (some d) 0) := by
  rintro _ ⟨⟩
  exact hd

/-- The types of all members can be read, of those added and of those still open. -/
structure AllReadable (r : Reading) : Prop where
  library : ∀ L ∈ r.library?, ReadableMembers L
  focus : ReadableFocus r.focus

theorem AllReadable.addType (h : r.AllReadable) (hd : ReadableType d)
    (hadd : r.addType d = .ok r') : r'.AllReadable := by
  obtain ⟨L, L', hL, hL', rfl⟩ := addType_eq_ok_iff.mp hadd
  obtain ⟨-, htypes⟩ := add_eq_ok_iff.mp hL'
  refine ⟨?_, trivial⟩
  rintro _ ⟨⟩
  unfold ReadableMembers
  rw [htypes]
  exact List.forall_mem_append.mpr ⟨h.library L hL, List.forall_mem_singleton.mpr hd⟩

theorem AllReadable.documentChild (h : r.AllReadable)
    (hchild : r.documentChild opens tag = .ok r') : r'.AllReadable := by
  rcases documentChild_cases hchild with ⟨-, rfl⟩ | ⟨d, -, htype, hd⟩ | ⟨-, -, rfl⟩
  · refine ⟨?_, h.focus⟩
    rintro _ ⟨⟩
    exact List.forall_mem_nil _
  · have hreadable : ReadableType d := by
      intro m hm
      rw [members_of_typeOf htype] at hm
      cases hm
    cases opens with
    | true =>
      subst hd
      exact ⟨h.library, hreadable⟩
    | false => exact h.addType hreadable hd
  · cases opens with
    | true => exact ⟨h.library, fun d hd => by cases hd⟩
    | false => exact h

theorem AllReadable.typeChild (h : r.AllReadable) (hfocus : r.focus = .type d)
    (hchild : r.typeChild d opens tag = .ok r') : r'.AllReadable := by
  have hd : ReadableType d := by
    have hreadable := h.focus
    rwa [hfocus] at hreadable
  rcases typeChild_cases hchild with ⟨d', name, rfl, rfl⟩ | ⟨m, -, hm, rfl⟩ | rfl
  · -- a supertype leaves the members alone
    cases opens with
    | true => exact ⟨h.library, readableFocus_skipping hd⟩
    | false => exact ⟨h.library, hd⟩
  · have hm := readable_of_methodOf hm
    cases opens with
    | true => exact ⟨h.library, hd, hm⟩
    | false => exact ⟨h.library, hd.withMember hm⟩
  · cases opens with
    | true => exact ⟨h.library, readableFocus_skipping hd⟩
    | false => exact h

/-- **One event keeps it up.** -/
theorem AllReadable.step {event : Event} (h : r.AllReadable) (hstep : r.step event = .ok r') :
    r'.AllReadable := by
  cases hfocus : r.focus with
  | document =>
    cases event with
    | start tag | empty tag =>
      simp only [Reading.step_document hfocus] at hstep
      exact h.documentChild hstep
    | close name =>
      simp only [Reading.step_document hfocus] at hstep
      cases hstep
      exact h
  | type d =>
    cases event with
    | start tag | empty tag =>
      simp only [Reading.step_type hfocus] at hstep
      exact h.typeChild hfocus hstep
    | close name =>
      have hd := h.focus
      rw [hfocus] at hd
      simp only [Reading.step_type hfocus] at hstep
      exact h.addType hd hstep
  | method d m =>
    have hreadable := h.focus
    rw [hfocus] at hreadable
    obtain ⟨hd, hm⟩ := hreadable
    rcases methodStep_cases hfocus hstep with ⟨tag, m', -, hm', rfl⟩ | ⟨-, rfl⟩ | ⟨name, -, -, rfl⟩
    · exact ⟨h.library, hd, hm.methodChild hm'⟩
    · exact ⟨h.library, hd.withMember hm⟩
    · exact h
  | skipping d? depth =>
    have hd := h.focus
    rw [hfocus] at hd
    rcases skippingStep_cases hfocus hstep with
      ⟨tag, -, rfl⟩ | ⟨tag, -, rfl⟩ | ⟨name, -, -, rfl⟩ | ⟨name, inner, -, -, rfl⟩
    · exact ⟨h.library, hd⟩
    · exact h
    · refine ⟨h.library, ?_⟩
      cases d? with
      | none => trivial
      | some d => exact hd d rfl
    · exact ⟨h.library, hd⟩

/-- The type that is still open at the end can be read as well. -/
theorem AllReadable.settle (h : r.AllReadable) (hsettle : r.settle = .ok r') :
    r'.AllReadable := by
  unfold Reading.settle at hsettle
  cases hopen : unfinished? r.focus with
  | none =>
    rw [hopen] at hsettle
    cases hsettle
    exact h
  | some d =>
    rw [hopen] at hsettle
    refine h.addType ?_ hsettle
    have hreadable := h.focus
    cases hfocus : r.focus with
    | document =>
      rw [hfocus] at hopen
      cases hopen
    | type d =>
      rw [hfocus] at hopen hreadable
      cases hopen
      exact hreadable
    | method d m =>
      rw [hfocus] at hopen hreadable
      cases hopen
      exact hreadable.1.withMember hreadable.2
    | skipping d? depth =>
      rw [hfocus] at hopen hreadable
      exact hreadable d hopen

end Reading

/-- **The member types of a document can all be read.** -/
theorem readableMembers_of_ofDocument {text : String} {L : Library} (h : ofDocument text = .ok L) :
    ReadableMembers L := by
  obtain ⟨-, r, hrun, hfinish⟩ := ofTranscript_eq_ok h
  have hstart : ({} : Reading).AllReadable := ⟨by rintro L ⟨⟩, trivial⟩
  have hr : r.AllReadable := foldlM_keeps (fun _ _ _ => Reading.AllReadable.step) hstart hrun
  rw [Reading.finish_eq, bind_eq_ok] at hfinish
  obtain ⟨settled, hsettle, hresult⟩ := hfinish
  exact (hr.settle hsettle).library L (Reading.result_eq_ok_iff.mp hresult)

end Stubwright.Library

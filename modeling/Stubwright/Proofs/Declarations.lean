import Stubwright.Proofs.Foreign
import Stubwright.Proofs.RoundTrip

/-!
# What a type element declares

    type element ──declared──▶ descriptor ──add──▶ library

What the reader makes of a type element depends on the element alone: neither the types before it nor
its place in the document matter. `declared` says what it is, by the shape of the element, and
`run_filled`, `run_declare` and `run_declared` that the reader finds exactly this, an error included.
Main statement (`ofDocument_eq_ok_iff`): a document in the format is read as a library exactly if each
of its type elements declares a type, and then the library has these types, in order. What the format
writes for a type declares this type (`TypeOf.declared`).
-/

namespace Stubwright.Library

open Java Markup

/-! ## Elements by themselves -/

/-- The member with the parts that some elements describe. -/
def filled (m : Member) (parts : List Element) : Except DocumentError Member :=
  parts.foldlM (fun m part => methodChild m part.tag) m

/-- The type with what an element in it says. -/
def declare (d : Descriptor) (e : Element) : Except DocumentError Descriptor :=
  match e.tag.name with
  | "extends" => do return withSupertype d (← required "extends" "type" e.tag)
  | "implements" => do return withSupertype d (← required "implements" "type" e.tag)
  | "method" => do return withMember d (← filled (← methodOf e.tag) e.children)
  | _ => .ok d

/-- The type that an element declares. -/
def declared (e : Element) : Except DocumentError Descriptor := do
  e.children.foldlM declare (← typeOf e.tag)

variable {library? : Option Library} {L : Library} {d : Descriptor}

/-- The reader takes in the parts of a method one by one. -/
theorem run_filled {parts : List Element} (h : ∀ part ∈ parts, IsPart part) (m : Member) :
    (Reading.mk library? (.method d m)).run (eventsOf parts) =
      filled m parts >>= fun m => .ok ⟨library?, .method d m⟩ := by
  induction parts generalizing m with
  | nil => rfl
  | cons part parts ih =>
    rw [List.forall_mem_cons] at h
    have hname : part.tag.name ≠ "method" := fun heq => absurd h.1.name (by rw [heq]; decide)
    rw [eventsOf, Reading.run_append, Reading.run_leaf h.1.leaf fun _ _ _ => hname, filled,
      List.foldlM_cons]
    simp only [Reading.step_mk_method]
    cases methodChild m part.tag with
    | error e => rfl
    | ok m => exact ih h.2 m

/-- The reader takes in a supertype, or a method with all its parts. -/
theorem run_declare {e : Element} (h : IsDeclaration e) (d : Descriptor) :
    (Reading.mk library? (.type d)).run e.events =
      declare d e >>= fun d => .ok ⟨library?, .type d⟩ := by
  cases h with
  | supertype hword hleaf =>
    rw [Reading.run_leaf hleaf fun d' m' hfocus => by cases hfocus]
    unfold declare
    rcases hword with hname | hname <;>
      · simp only [Reading.step_mk_type, Reading.typeChild, hname]
        cases required _ "type" e.tag <;> rfl
  | method hname hparts =>
    have hpaired : ∀ {tag children}, tag.name = "method" → (∀ part ∈ children, IsPart part) →
        (Reading.mk library? (.type d)).run (Element.paired tag children).events =
          declare d (.paired tag children) >>= fun d => .ok ⟨library?, .type d⟩ := by
      intro tag children hname hparts
      unfold declare
      simp only [Element.events, Element.tag, Element.children, Reading.run_cons, Reading.run_append,
        Reading.step_mk_type, Reading.typeChild, hname]
      cases methodOf tag with
      | error e => rfl
      | ok m =>
        simp only [ok_bind, if_true, pure, Except.pure, run_filled hparts m]
        cases filled m children <;> rfl
    cases e with
    | single tag =>
      rw [Reading.run_single fun d' m' hfocus => by cases hfocus]
      exact hpaired hname hparts
    | paired tag children => exact hpaired hname hparts

theorem run_declarations_of_type {es : List Element} (h : ∀ e ∈ es, IsDeclaration e)
    (d : Descriptor) :
    (Reading.mk library? (.type d)).run (eventsOf es) =
      es.foldlM declare d >>= fun d => .ok ⟨library?, .type d⟩ := by
  induction es generalizing d with
  | nil => rfl
  | cons e es ih =>
    rw [List.forall_mem_cons] at h
    rw [eventsOf, Reading.run_append, run_declare h.1, List.foldlM_cons]
    cases declare d e with
    | error e => rfl
    | ok d => exact ih h.2 d

/-- **The reader adds the type that an element declares**, to whatever library there is. -/
theorem run_declared {e : Element} (h : IsTypeElement e) (L : Library) :
    (Reading.mk (some L) .document).run e.events =
      declared e >>= fun d => L.add d >>= fun L => .ok ⟨some L, .document⟩ := by
  have hpaired : ∀ {tag children}, tag.name = "type" → (∀ child ∈ children, IsDeclaration child) →
      (Reading.mk (some L) .document).run (Element.paired tag children).events =
        declared (.paired tag children) >>= fun d => L.add d >>= fun L =>
          .ok ⟨some L, .document⟩ := by
    intro tag children hname hchildren
    have hstart : (Reading.mk (some L) .document).step (.start tag) =
        typeOf tag >>= fun d => .ok ⟨some L, .type d⟩ := by
      simp only [Reading.step_mk_document, Reading.documentChild, hname]
      cases typeOf tag <;> rfl
    have hclose : ∀ d, (Reading.mk (some L) (.type d)).step (.close tag.name) =
        L.add d >>= fun L => .ok ⟨some L, .document⟩ := fun d => rfl
    rw [Element.events, Reading.run_cons, hstart, declared]
    show _ = (typeOf tag >>= fun d => children.foldlM declare d) >>= _
    cases typeOf tag with
    | error e => rfl
    | ok d =>
      show (Reading.mk (some L) (.type d)).run (eventsOf children ++ [.close tag.name]) =
        children.foldlM declare d >>= _
      rw [Reading.run_append, run_declarations_of_type hchildren]
      cases children.foldlM declare d with
      | error e => rfl
      | ok d => rw [ok_bind, ok_bind, ok_bind, Reading.run_singleton, hclose]
  cases e with
  | single tag =>
    rw [Reading.run_single fun d' m' hfocus => by cases hfocus]
    exact hpaired h.name h.declarations
  | paired tag children => exact hpaired h.name h.declarations

/-! ## Elements that are written -/

theorem PartsOf.isPart {index : Nat} {parameters : List Parameter} {exceptions : List JavaType}
    {annotations : List String} {es : List Element}
    (h : PartsOf index parameters exceptions annotations es) : ∀ e ∈ es, IsPart e := by
  induction h with
  | nil => exact List.forall_mem_nil _
  | parameter hleaf _ ih =>
    exact List.forall_mem_cons.mpr ⟨⟨by rw [hleaf.name]; decide, hleaf.leaf⟩, ih⟩
  | exception hleaf _ ih =>
    exact List.forall_mem_cons.mpr ⟨⟨by rw [hleaf.name]; decide, hleaf.leaf⟩, ih⟩
  | marking hleaf _ ih =>
    exact List.forall_mem_cons.mpr ⟨⟨by rw [hleaf.name]; decide, hleaf.leaf⟩, ih⟩

theorem DeclarationsOf.isDeclaration {supertypes : List String} {members : List Member}
    {es : List Element} (h : DeclarationsOf supertypes members es) :
    ∀ e ∈ es, IsDeclaration e := by
  induction h with
  | nil => exact List.forall_mem_nil _
  | supertype word hword hleaf _ ih =>
    exact List.forall_mem_cons.mpr ⟨.supertype (hleaf.name ▸ hword) hleaf.leaf, ih⟩
  | method hmethod _ ih =>
    exact List.forall_mem_cons.mpr ⟨.method hmethod.name hmethod.parts.isPart, ih⟩

/-- What is written for a type is a type element. -/
theorem TypeOf.isTypeElement {e : Element} (h : TypeOf d e) : IsTypeElement e :=
  ⟨h.name, h.declarations.isDeclaration⟩

/-- **What is written for a type declares it.** -/
theorem TypeOf.declared {e : Element} (h : TypeOf d e) (hd : WritableType d) :
    declared e = .ok d := by
  -- added to a library without types, the type that is declared is the only one
  obtain ⟨L, hadd⟩ := exists_add (L := Library.empty) (d := d) List.not_mem_nil
  have hrun := run_type h hd hadd
  rw [run_declared h.isTypeElement] at hrun
  obtain ⟨d', hdeclared, hrun⟩ := bind_eq_ok.mp hrun
  obtain ⟨L', hadd', hrun⟩ := bind_eq_ok.mp hrun
  cases hrun
  have htypes : [d'] = [d] := (add_eq_ok_iff.mp hadd').2.symm.trans (add_eq_ok_iff.mp hadd).2
  rw [hdeclared, List.singleton_inj.mp htypes]

/-! ## Documents -/

/-- The elements declare the types. -/
def Declare (es : List Element) (ds : List Descriptor) : Prop :=
  List.Forall₂ (fun e d => declared e = .ok d) es ds

theorem run_types_eq_ok_iff {es : List Element} (h : ∀ e ∈ es, IsTypeElement e) {L : Library}
    {r : Reading} :
    (Reading.mk (some L) .document).run (eventsOf es) = .ok r ↔
      ∃ ds L', Declare es ds ∧ L'.types = L.types ++ ds ∧ r = ⟨some L', .document⟩ := by
  induction es generalizing L with
  | nil =>
    constructor
    · intro hrun
      cases hrun
      exact ⟨[], L, .nil, (List.append_nil _).symm, rfl⟩
    · rintro ⟨ds, L', hds, hL', rfl⟩
      cases hds
      rw [eq_of_types (hL'.trans (List.append_nil _))]
      rfl
  | cons e es ih =>
    rw [List.forall_mem_cons] at h
    rw [eventsOf, Reading.run_append, run_declared h.1, bind_eq_ok]
    constructor
    · rintro ⟨r₁, hfirst, hrest⟩
      obtain ⟨d, hd, hfirst⟩ := bind_eq_ok.mp hfirst
      obtain ⟨L₁, hadd, hr₁⟩ := bind_eq_ok.mp hfirst
      cases hr₁
      obtain ⟨ds, L', hds, hL', rfl⟩ := (ih h.2).mp hrest
      refine ⟨d :: ds, L', .cons hd hds, ?_, rfl⟩
      rw [hL', (add_eq_ok_iff.mp hadd).2, List.append_assoc, List.singleton_append]
    · rintro ⟨ds, L', hds, hL', rfl⟩
      cases hds with
      | @cons _ d _ ds hd hds =>
        -- the types before and this one are types of one library
        have hfree : d.name ∉ L.names := by
          have hdistinct := L'.distinct
          rw [hL', List.map_append, List.nodup_append] at hdistinct
          intro hmem
          exact hdistinct.2.2 d.name hmem d.name (List.mem_map_of_mem List.mem_cons_self) rfl
        obtain ⟨L₁, hadd⟩ := exists_add hfree
        refine ⟨⟨some L₁, .document⟩, ?_, (ih h.2).mpr ⟨ds, L', hds, ?_, rfl⟩⟩
        · rw [hd, ok_bind, hadd, ok_bind]
        · rw [hL', (add_eq_ok_iff.mp hadd).2, List.append_assoc, List.singleton_append]

/-- **A document in the format is read as a library exactly if its elements declare the types** of
the library, in order. -/
theorem ofDocument_eq_ok_iff {root : Element} {text : String} (hroot : IsLibraryElement root)
    (hwritten : Written [root] text.toList) :
    ofDocument text = .ok L ↔ Declare root.children L.types := by
  have hpaired : ∀ {tag children}, IsLibraryElement (.paired tag children) → ∀ r,
      ({} : Reading).run (Element.paired tag children).events = .ok r ↔
        ∃ L', Declare children L'.types ∧ r = ⟨some L', .document⟩ := by
    intro tag children h r
    have hname : tag.name = "typeLibrary" := h.name
    simp only [Element.events, Reading.run_cons, Reading.run_append, Reading.step_mk_document,
      Reading.documentChild, hname, ok_bind]
    rw [bind_eq_ok]
    constructor
    · rintro ⟨r', hchildren, hclose⟩
      obtain ⟨ds, L', hds, hL', rfl⟩ := (run_types_eq_ok_iff h.types).mp hchildren
      obtain rfl : L'.types = ds := hL'
      cases hclose
      exact ⟨L', hds, rfl⟩
    · rintro ⟨L', hL', rfl⟩
      exact ⟨_, (run_types_eq_ok_iff h.types).mpr ⟨_, L', hL', rfl, rfl⟩, rfl⟩
  have hrun : ∀ r, ({} : Reading).run root.events = .ok r ↔
      ∃ L', Declare root.children L'.types ∧ r = ⟨some L', .document⟩ := by
    cases root with
    | single tag =>
      rw [Reading.run_single fun d m hfocus => by cases hfocus]
      exact hpaired ⟨hroot.name, hroot.types⟩
    | paired tag children => exact hpaired hroot
  rw [ofDocument_written hwritten, eventsOf_singleton, bind_eq_ok]
  constructor
  · rintro ⟨r, hr, hfinish⟩
    obtain ⟨L', hL', rfl⟩ := (hrun r).mp hr
    cases hfinish
    exact hL'
  · intro hL
    exact ⟨_, (hrun _).mpr ⟨L, hL, rfl⟩, rfl⟩

end Stubwright.Library

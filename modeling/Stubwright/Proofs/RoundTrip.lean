import Stubwright.Proofs.Format
import Stubwright.Proofs.Nesting

/-!
# A written library is read back

    library ──Writes──▶ document text ──ofDocument──▶ the same library

Main statement (`ofDocument_of_writes`): every document that writes a library is read as exactly
this library. `run_parts`, `run_method`, `run_declarations`, `run_type` and `run_types` say the same one
element further out each time; the proofs follow the format.
-/

namespace Stubwright.Library

open Java Markup

/-! ## Methods -/

section Methods

variable {library? : Option Library} {d : Descriptor} {m : Member}

/-- The first part is taken in, and the others are read behind it. -/
theorem run_part {m' : Member} {e : Element} (hname : e.tag.name ≠ "method")
    (hleaf : e.children = []) (h : methodChild m e.tag = .ok m') (es : List Element) :
    (Reading.mk library? (.method d m)).run (eventsOf (e :: es)) =
      (Reading.mk library? (.method d m')).run (eventsOf es) := by
  have hfirst : (Reading.mk library? (.method d m)).run e.events
      = .ok ⟨library?, .method d m'⟩ := by
    rw [Reading.run_leaf hleaf fun _ _ _ => hname]
    simp only [Reading.step_mk_method, h]
    rfl
  rw [eventsOf, Reading.run_append, hfirst, ok_bind]

theorem methodChild_parameter {p : Parameter} {e : Element}
    (h : LeafOf "param" (parameterSettings m.parameters.length p) e) (hname : p.name ≠ "")
    (htype : Readable p.type) :
    methodChild m e.tag = .ok { m with parameters := m.parameters ++ [p] } := by
  simp only [methodChild, h.name, parameterOf_eq h.states hname htype]
  rfl

theorem methodChild_exception {t : JavaType} {e : Element}
    (h : LeafOf "throws" (singleSetting "type" t.binaryName) e) (ht : Readable t) :
    methodChild m e.tag = .ok { m with exceptions := m.exceptions ++ [t] } := by
  simp only [methodChild, h.name, required_eq h.states, ok_bind, typeNamed_binaryName ht]
  rfl

theorem methodChild_marking {text : String} {e : Element}
    (h : LeafOf "annotation" (singleSetting "text" text) e) :
    methodChild m e.tag = .ok { m with annotations := m.annotations ++ [text] } := by
  simp only [methodChild, h.name, required_eq h.states]
  rfl

/-- **The elements in a method are read as its parts.** -/
theorem run_parts {parameters : List Parameter} {exceptions : List JavaType}
    {annotations : List String} {es : List Element}
    (h : PartsOf m.parameters.length parameters exceptions annotations es)
    (hparameters : ∀ p ∈ parameters, p.name ≠ "" ∧ Readable p.type)
    (hexceptions : ∀ t ∈ exceptions, Readable t) :
    (Reading.mk library? (.method d m)).run (eventsOf es) =
      .ok ⟨library?, .method d { m with
        parameters := m.parameters ++ parameters
        exceptions := m.exceptions ++ exceptions
        annotations := m.annotations ++ annotations }⟩ := by
  generalize hindex : m.parameters.length = index at h
  induction h generalizing m with
  | nil =>
    simp only [List.append_nil]
    rfl
  | @parameter index p parameters exceptions annotations e es hleaf _ ih =>
    rw [List.forall_mem_cons] at hparameters
    have hchild : methodChild m e.tag = .ok { m with parameters := m.parameters ++ [p] } := by
      subst hindex
      exact methodChild_parameter hleaf hparameters.1.1 hparameters.1.2
    have hrest := ih (m := { m with parameters := m.parameters ++ [p] }) hparameters.2 hexceptions
      (by rw [List.length_append, hindex, List.length_singleton])
    rw [run_part (by rw [hleaf.name]; decide) hleaf.leaf hchild, hrest]
    simp only [List.append_assoc, List.singleton_append]
  | @exception index t parameters exceptions annotations e es hleaf _ ih =>
    rw [List.forall_mem_cons] at hexceptions
    have hchild : methodChild m e.tag = .ok { m with exceptions := m.exceptions ++ [t] } :=
      methodChild_exception hleaf hexceptions.1
    have hrest := ih (m := { m with exceptions := m.exceptions ++ [t] }) hparameters hexceptions.2
      hindex
    rw [run_part (by rw [hleaf.name]; decide) hleaf.leaf hchild, hrest]
    simp only [List.append_assoc, List.singleton_append]
  | @marking index text parameters exceptions annotations e es hleaf _ ih =>
    have hchild : methodChild m e.tag = .ok { m with annotations := m.annotations ++ [text] } :=
      methodChild_marking hleaf
    have hrest := ih (m := { m with annotations := m.annotations ++ [text] }) hparameters
      hexceptions hindex
    rw [run_part (by rw [hleaf.name]; decide) hleaf.leaf hchild, hrest]
    simp only [List.append_assoc, List.singleton_append]

/-- **The element of a method is read as the method.** -/
theorem run_method {e : Element} (h : MethodOf m e) (hm : WritableMember m) :
    (Reading.mk library? (.type d)).run e.events = .ok ⟨library?, .type (withMember d m)⟩ := by
  have hpaired : ∀ {tag children}, MethodOf m (.paired tag children) →
      (Reading.mk library? (.type d)).run (Element.paired tag children).events
        = .ok ⟨library?, .type (withMember d m)⟩ := by
    intro tag children h
    have hname : tag.name = "method" := h.name
    have hhead : methodOf tag = .ok ⟨m.name, m.returns, [], [], [], m.isStatic, m.isFinal⟩ :=
      methodOf_eq h.states hm.returns
    have hstart : (Reading.mk library? (.type d)).step (.start tag)
        = .ok ⟨library?, .method d ⟨m.name, m.returns, [], [], [], m.isStatic, m.isFinal⟩⟩ := by
      simp only [Reading.step_mk_type, Reading.typeChild, hname, hhead]
      rfl
    have hparts : (Reading.mk library? (.method d
          ⟨m.name, m.returns, [], [], [], m.isStatic, m.isFinal⟩)).run (eventsOf children)
        = .ok ⟨library?, .method d m⟩ :=
      run_parts h.parts hm.parameters hm.exceptions
    rw [Element.events, Reading.run_cons, hstart, ok_bind, Reading.run_append, hparts, ok_bind,
      Reading.run_singleton, hname]
    rfl
  cases e with
  | single tag =>
    rw [Reading.run_single (fun d' m' hfocus => by cases hfocus)]
    exact hpaired ⟨h.name, h.states, h.parts⟩
  | paired tag children => exact hpaired h

end Methods

/-! ## Types -/

section Types

variable {library? : Option Library} {d : Descriptor}

/-- **The elements in a type are read as its supertypes and methods.** -/
theorem run_declarations {supertypes : List String} {members : List Member} {es : List Element}
    (h : DeclarationsOf supertypes members es) (hmembers : ∀ m ∈ members, WritableMember m) :
    (Reading.mk library? (.type d)).run (eventsOf es) =
      .ok ⟨library?, .type { d with
        supertypes := d.supertypes ++ supertypes
        members := d.members ++ members }⟩ := by
  induction h generalizing d with
  | nil =>
    simp only [List.append_nil]
    rfl
  | @supertype name supertypes members e es word hword hleaf _ ih =>
    have hchild : (Reading.mk library? (.type d)).run e.events
        = .ok ⟨library?, .type (withSupertype d name)⟩ := by
      rw [Reading.run_leaf hleaf.leaf (fun d' m' hfocus => by cases hfocus)]
      rcases hword with rfl | rfl <;>
        simp only [Reading.step_mk_type, Reading.typeChild, hleaf.name, required_eq hleaf.states] <;> rfl
    rw [eventsOf, Reading.run_append, hchild, ok_bind, ih hmembers]
    simp only [withSupertype, List.append_assoc, List.singleton_append]
  | @method m supertypes members e es hmethod _ ih =>
    rw [List.forall_mem_cons] at hmembers
    rw [eventsOf, Reading.run_append, run_method hmethod hmembers.1, ok_bind, ih hmembers.2]
    simp only [withMember, List.append_assoc, List.singleton_append]

/-- **The element of a type is read as the type**, which is added to the library. -/
theorem run_type {e : Element} {L L' : Library} (h : TypeOf d e) (hd : WritableType d)
    (hadd : L.add d = .ok L') :
    (Reading.mk (some L) .document).run e.events = .ok ⟨some L', .document⟩ := by
  have hpaired : ∀ {tag children}, TypeOf d (.paired tag children) →
      (Reading.mk (some L) .document).run (Element.paired tag children).events
        = .ok ⟨some L', .document⟩ := by
    intro tag children h
    have hname : tag.name = "type" := h.name
    obtain ⟨name, hreference⟩ := hd.name
    have hhead : typeOf tag = .ok { name := d.name, kind := d.kind, isFinal := d.isFinal } :=
      typeOf_eq h.states hreference hd.kind
    have hstart : (Reading.mk (some L) .document).step (.start tag)
        = .ok ⟨some L, .type { name := d.name, kind := d.kind, isFinal := d.isFinal }⟩ := by
      simp only [Reading.step_mk_document, Reading.documentChild, hname, hhead]
      rfl
    have hdeclarations : (Reading.mk (some L)
          (.type { name := d.name, kind := d.kind, isFinal := d.isFinal })).run (eventsOf children)
        = .ok ⟨some L, .type d⟩ :=
      run_declarations h.declarations hd.members
    have hclose : (Reading.mk (some L) (.type d)).step (.close tag.name)
        = .ok ⟨some L', .document⟩ := by
      simp only [Reading.step_mk_type]
      exact Reading.addType_eq_ok_iff.mpr ⟨L, L', rfl, hadd, rfl⟩
    rw [Element.events, Reading.run_cons, hstart, ok_bind, Reading.run_append, hdeclarations,
      ok_bind, Reading.run_singleton, hclose]
  cases e with
  | single tag =>
    rw [Reading.run_single (fun d' m' hfocus => by cases hfocus)]
    exact hpaired ⟨h.name, h.states, h.declarations⟩
  | paired tag children => exact hpaired h

/-- The types are added one by one; each name is free, since no two types of the library share
one. -/
theorem run_types {types : List Descriptor} {es : List Element} {L L' : Library}
    (h : List.Forall₂ TypeOf types es) (htypes : ∀ d ∈ types, WritableType d)
    (hL : L'.types = L.types ++ types) :
    (Reading.mk (some L) .document).run (eventsOf es) = .ok ⟨some L', .document⟩ := by
  induction h generalizing L with
  | nil =>
    rw [List.append_nil] at hL
    rw [eq_of_types hL]
    rfl
  | @cons d e types es htype _ ih =>
    rw [List.forall_mem_cons] at htypes
    -- the types before and this one are all types of one library
    have hfree : d.name ∉ L.names := by
      have hdistinct := L'.distinct
      rw [hL, List.map_append, List.nodup_append] at hdistinct
      intro hmem
      exact hdistinct.2.2 d.name hmem d.name (List.mem_map_of_mem List.mem_cons_self) rfl
    obtain ⟨next, hadd⟩ := exists_add hfree
    have hrest : L'.types = next.types ++ types := by
      rw [(add_eq_ok_iff.mp hadd).2, hL, List.append_assoc, List.singleton_append]
    rw [eventsOf, Reading.run_append, run_type htype htypes.1 hadd, ok_bind]
    exact ih htypes.2 hrest

end Types

/-! ## Libraries -/

/-- **Every document that writes a library is read as exactly this library.** -/
theorem ofDocument_of_writes {L : Library} {text : String} (hL : Writable L) (h : Writes L text) :
    ofDocument text = .ok L := by
  obtain ⟨e, hlibrary, hwritten⟩ := h
  have hpaired : ∀ {tag children}, LibraryOf L (.paired tag children) →
      ({} : Reading).run (Element.paired tag children).events = .ok ⟨some L, .document⟩ := by
    intro tag children h
    have hname : tag.name = "typeLibrary" := h.name
    have hstart : ({} : Reading).step (.start tag) = .ok ⟨some Library.empty, .document⟩ := by
      simp only [Reading.step, Reading.documentChild, hname]
    have htypes : (Reading.mk (some Library.empty) .document).run (eventsOf children)
        = .ok ⟨some L, .document⟩ :=
      run_types h.types hL rfl
    rw [Element.events, Reading.run_cons, hstart, ok_bind, Reading.run_append, htypes]
    rfl
  have hrun : ({} : Reading).run e.events = .ok ⟨some L, .document⟩ := by
    cases e with
    | single tag =>
      rw [Reading.run_single (fun d m hfocus => by cases hfocus)]
      exact hpaired ⟨hlibrary.name, hlibrary.types⟩
    | paired tag children => exact hpaired hlibrary
  rw [ofDocument_written hwritten, eventsOf_singleton, hrun]
  rfl

/-- A method with all kinds of parts. -/
def scale : Member where
  name := "scale"
  returns := .reference "a.Shape"
  parameters := [⟨"factor", .primitive .double⟩, ⟨"arg1", .array (.primitive .int)⟩]
  exceptions := [.reference "java.io.IOException"]
  annotations := ["@Deprecated(since=\"\")"]
  isStatic := true

/-- An interface, and a class below it. -/
def shapes : Library :=
  ⟨[{ name := "a.Named" },
    { name := "a.Shape", kind := .classType, isFinal := true, supertypes := ["a.Named"],
      members := [scale] }], by decide⟩

theorem writable_scale : WritableMember scale where
  returns := ⟨"a.Shape", by decide +kernel⟩
  parameters := by
    refine List.forall_mem_cons.mpr ⟨⟨by decide, "double", by decide +kernel⟩, ?_⟩
    exact List.forall_mem_singleton.mpr ⟨by decide, "int[]", by decide +kernel⟩
  exceptions := List.forall_mem_singleton.mpr ⟨"java.io.IOException", by decide +kernel⟩

theorem ofDocument_of_writes_shapes :
    Writable shapes ∧ Writes shapes (plainDocument shapes) ∧
      ofDocument (plainDocument shapes) = .ok shapes := by
  have hwritable : Writable shapes := by
    refine List.forall_mem_cons.mpr ⟨?_, List.forall_mem_singleton.mpr ?_⟩
    · exact ⟨⟨"a.Named", by decide +kernel⟩, .inl rfl, List.forall_mem_nil _⟩
    · exact ⟨⟨"a.Shape", by decide +kernel⟩, .inr rfl, List.forall_mem_singleton.mpr writable_scale⟩
  have hwrites : Writes shapes (plainDocument shapes) := writes_plainDocument shapes
  exact ⟨hwritable, hwrites, ofDocument_of_writes hwritable hwrites⟩

end Stubwright.Library

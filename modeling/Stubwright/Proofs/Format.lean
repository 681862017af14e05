import Stubwright.Proofs.Elements
import Stubwright.Proofs.Settings

/-!
# The document format

    library ──Writes──▶ document text

A library has many documents. `Writes` relates it to all of them: the supertypes and methods of a
type may be mixed, and so may the parts of a method, as long as each kind stands in its order; the
attributes of a tag say what there is to say (`Tag.States`); an element without content is one tag
or two; and between the tags there may be blanks, comments and the like (`Filler`). One document of
every library is the plain one, which says everything and has nothing between its tags
(`writes_plainDocument`).
-/

namespace Stubwright.Library

open Java Markup

/-! ## What can be written -/

/-- The parameters have names, and all types in the signature can be read. -/
structure WritableMember (m : Member) : Prop where
  returns : Readable m.returns
  parameters : ∀ p ∈ m.parameters, p.name ≠ "" ∧ Readable p.type
  exceptions : ∀ t ∈ m.exceptions, Readable t

/-- An interface or a class with the name of one. -/
structure WritableType (d : Descriptor) : Prop where
  name : ∃ name, JavaType.ofName? d.name = some (.reference name)
  kind : d.kind = .interfaceType ∨ d.kind = .classType
  members : ∀ m ∈ d.members, WritableMember m

/-- All types can be written. -/
def Writable (L : Library) : Prop := ∀ d ∈ L.types, WritableType d

/-! ## Elements that say something -/

/-- An element without content. -/
structure LeafOf (name : String) (settings : List Setting) (e : Element) : Prop where
  name : e.tag.name = name
  states : e.tag.States settings
  leaf : e.children = []

/-- The elements in a method, from the parameter with the given index on. -/
inductive PartsOf : Nat → List Parameter → List JavaType → List String → List Element → Prop
  | nil {index : Nat} : PartsOf index [] [] [] []
  | parameter {index p parameters exceptions annotations e es} :
      LeafOf "param" (parameterSettings index p) e →
      PartsOf (index + 1) parameters exceptions annotations es →
      PartsOf index (p :: parameters) exceptions annotations (e :: es)
  | exception {index t parameters exceptions annotations e es} :
      LeafOf "throws" (singleSetting "type" t.binaryName) e →
      PartsOf index parameters exceptions annotations es →
      PartsOf index parameters (t :: exceptions) annotations (e :: es)
  | marking {index text parameters exceptions annotations e es} :
      LeafOf "annotation" (singleSetting "text" text) e →
      PartsOf index parameters exceptions annotations es →
      PartsOf index parameters exceptions (text :: annotations) (e :: es)

/-- The element of a method. -/
structure MethodOf (m : Member) (e : Element) : Prop where
  name : e.tag.name = "method"
  states : e.tag.States (methodSettings m)
  parts : PartsOf 0 m.parameters m.exceptions m.annotations e.children

/-- The elements in a type. -/
inductive DeclarationsOf : List String → List Member → List Element → Prop
  | nil : DeclarationsOf [] [] []
  | supertype {name supertypes members e es} (word : String) :
      word = "extends" ∨ word = "implements" → LeafOf word (singleSetting "type" name) e →
      DeclarationsOf supertypes members es →
      DeclarationsOf (name :: supertypes) members (e :: es)
  | method {m supertypes members e es} : MethodOf m e → DeclarationsOf supertypes members es →
      DeclarationsOf supertypes (m :: members) (e :: es)

/-- The element of a type. -/
structure TypeOf (d : Descriptor) (e : Element) : Prop where
  name : e.tag.name = "type"
  states : e.tag.States (typeSettings d)
  declarations : DeclarationsOf d.supertypes d.members e.children

/-- The element of a library: its types, in order. -/
structure LibraryOf (L : Library) (e : Element) : Prop where
  name : e.tag.name = "typeLibrary"
  types : List.Forall₂ TypeOf L.types e.children

/-- The document writes the library. -/
def Writes (L : Library) (text : String) : Prop := ∃ e, LibraryOf L e ∧ Written [e] text.toList

/-! ## The plain document -/

/-- An element without content that says everything. -/
def plainLeaf (name : String) (settings : List Setting) : Element :=
  .single (plainTag name settings)

/-- The parameters from the given index on. -/
def plainParameters (index : Nat) : List Parameter → List Element
  | [] => []
  | p :: parameters =>
    plainLeaf "param" (parameterSettings index p) :: plainParameters (index + 1) parameters

/-- A method: its parameters, then its exceptions, then its annotations. -/
def plainMethod (m : Member) : Element :=
  .paired (plainTag "method" (methodSettings m)) (plainParameters 0 m.parameters ++
    m.exceptions.map (fun t => plainLeaf "throws" (singleSetting "type" t.binaryName)) ++
    m.annotations.map fun text => plainLeaf "annotation" (singleSetting "text" text))

/-- A type: its supertypes, then its methods. -/
def plainType (d : Descriptor) : Element :=
  .paired (plainTag "type" (typeSettings d))
    (d.supertypes.map (fun name => plainLeaf "extends" (singleSetting "type" name)) ++
      d.members.map plainMethod)

/-- The document of the library that says everything. -/
def plainDocument (L : Library) : String :=
  documentOf (.paired (plainTag "typeLibrary" []) (L.types.map plainType))

theorem properKeys_parameterSettings (index : Nat) (p : Parameter) :
    ProperKeys ((parameterSettings index p).map (·.key)) := by
  show ProperKeys ["name", "type"]
  decide

theorem properKeys_singleSetting {key : String} (hkey : IsName key.toList) (value : String) :
    ProperKeys ((singleSetting key value).map (·.key)) :=
  ⟨List.forall_mem_singleton.mpr hkey, List.nodup_singleton _⟩

theorem properKeys_methodSettings (m : Member) : ProperKeys ((methodSettings m).map (·.key)) := by
  show ProperKeys ["name", "returns", "static", "final"]
  decide

theorem properKeys_typeSettings (d : Descriptor) : ProperKeys ((typeSettings d).map (·.key)) := by
  show ProperKeys ["name", "kind", "final"]
  decide

/-! ### It says what it should -/

theorem leafOf_plainLeaf (name : String) {settings : List Setting}
    (h : ProperKeys (settings.map (·.key))) : LeafOf name settings (plainLeaf name settings) :=
  ⟨rfl, plainTag_states name h, rfl⟩

theorem partsOf_plain (index : Nat) (parameters : List Parameter) (exceptions : List JavaType)
    (annotations : List String) :
    PartsOf index parameters exceptions annotations (plainParameters index parameters ++
      exceptions.map (fun t => plainLeaf "throws" (singleSetting "type" t.binaryName)) ++
      annotations.map fun text => plainLeaf "annotation" (singleSetting "text" text)) := by
  induction parameters generalizing index with
  | nil =>
    induction exceptions with
    | nil =>
      induction annotations with
      | nil => exact .nil
      | cons text annotations ih =>
        exact .marking (leafOf_plainLeaf _ (properKeys_singleSetting (by decide) _)) ih
    | cons t exceptions ih =>
      exact .exception (leafOf_plainLeaf _ (properKeys_singleSetting (by decide) _)) ih
  | cons p parameters ih =>
    exact .parameter (leafOf_plainLeaf _ (properKeys_parameterSettings index p)) (ih (index + 1))

theorem methodOf_plainMethod (m : Member) : MethodOf m (plainMethod m) :=
  ⟨rfl, plainTag_states _ (properKeys_methodSettings m), partsOf_plain 0 _ _ _⟩

/-- The supertypes of a type, then its methods, each as it may be written. -/
theorem declarationsOf_methods {members : List Member} {es : List Element}
    (h : List.Forall₂ MethodOf members es) (supertypes : List String) :
    DeclarationsOf supertypes members
      (supertypes.map (fun name => plainLeaf "extends" (singleSetting "type" name)) ++ es) := by
  induction supertypes with
  | nil =>
    induction h with
    | nil => exact .nil
    | cons hmethod _ ih => exact .method hmethod ih
  | cons name supertypes ih =>
    have hkeys : ProperKeys ((singleSetting "type" name).map (·.key)) :=
      properKeys_singleSetting (by decide) name
    have hleaf := leafOf_plainLeaf "extends" hkeys
    exact .supertype "extends" (.inl rfl) hleaf ih

theorem typeOf_plainType (d : Descriptor) : TypeOf d (plainType d) :=
  have hmethods : List.Forall₂ MethodOf d.members (d.members.map plainMethod) :=
    List.forall₂_map_right_iff.mpr (List.forall₂_same.mpr fun m _ => methodOf_plainMethod m)
  ⟨rfl, plainTag_states _ (properKeys_typeSettings d), declarationsOf_methods hmethods _⟩

/-! ### It can be written -/

theorem wellFormed_plainTag {name : String} (hname : IsName name.toList) {settings : List Setting}
    (h : ProperKeys (settings.map (·.key))) : (plainTag name settings).WellFormed :=
  ⟨hname, _, plainAttributes_wellFormed h⟩

theorem wellFormed_plainParameters (index : Nat) (parameters : List Parameter) :
    ∀ e ∈ plainParameters index parameters, e.WellFormed := by
  induction parameters generalizing index with
  | nil => exact List.forall_mem_nil _
  | cons p parameters ih =>
    have htag : (plainTag "param" (parameterSettings index p)).WellFormed :=
      wellFormed_plainTag (by decide) (properKeys_parameterSettings index p)
    exact List.forall_mem_cons.mpr ⟨.single htag, ih (index + 1)⟩

theorem wellFormed_plainMethod (m : Member) : (plainMethod m).WellFormed := by
  refine .paired (wellFormed_plainTag (by decide) (properKeys_methodSettings m)) ?_
  intro e he
  rw [List.mem_append, List.mem_append, List.mem_map, List.mem_map] at he
  rcases he with (he | ⟨t, -, rfl⟩) | ⟨text, -, rfl⟩
  · exact wellFormed_plainParameters 0 m.parameters e he
  · exact .single (wellFormed_plainTag (by decide) (properKeys_singleSetting (by decide) _))
  · exact .single (wellFormed_plainTag (by decide) (properKeys_singleSetting (by decide) _))

theorem wellFormed_plainType (d : Descriptor) : (plainType d).WellFormed := by
  refine .paired (wellFormed_plainTag (by decide) (properKeys_typeSettings d)) ?_
  intro e he
  rw [List.mem_append, List.mem_map, List.mem_map] at he
  rcases he with ⟨name, -, rfl⟩ | ⟨m, -, rfl⟩
  · exact .single (wellFormed_plainTag (by decide) (properKeys_singleSetting (by decide) _))
  · exact wellFormed_plainMethod m

/-- **Every library has a document.** -/
theorem writes_plainDocument (L : Library) : Writes L (plainDocument L) := by
  refine ⟨_, ⟨rfl, ?_⟩, written_documentOf ?_⟩
  · exact List.forall₂_map_right_iff.mpr (List.forall₂_same.mpr fun d _ => typeOf_plainType d)
  · have hroot : (plainTag "typeLibrary" []).WellFormed :=
      wellFormed_plainTag (by decide) (by decide)
    refine .paired hroot ?_
    intro e he
    obtain ⟨d, -, rfl⟩ := List.mem_map.mp he
    exact wellFormed_plainType d

end Stubwright.Library

import Stubwright.Library.Document
import Stubwright.Proofs.Reading
import Stubwright.Proofs.TagText
import Stubwright.Proofs.TypeNames

/-!
# What the attributes of an element say

    settings ──States──▶ tag ──typeOf, methodOf, parameterOf, required──▶ what was set

An element has a setting for everything that its attributes can say. `Tag.States` relates settings to
all tags that say them: in any order, each value in any spelling, and with any of those left out that
have their default value. Whichever tag it is, the reader gets the same (`typeOf_eq`, `methodOf_eq`,
`parameterOf_eq`, `required_eq`). The three readers that take several attributes go over them one by
one; what such a walk ends in is said once, in `foldlM_settles`.
-/

namespace Stubwright.Markup

/-! ## Tags that say something -/

/-- The text of the tag has these attributes, in this order, every value in some spelling. -/
def Tag.Lists (tag : Tag) (attributes : List Attribute) : Prop :=
  ∃ raws, WellFormedText raws tag.rest ∧
    List.Forall₂ (fun a raw => raw.1 = a.1.toList ∧ Spelling a.2.toList raw.2) attributes raws

theorem Tag.Lists.attributes_eq {tag : Tag} {attributes : List Attribute}
    (h : tag.Lists attributes) : tag.attributes = .ok attributes := by
  obtain ⟨raws, htext, hraws⟩ := h
  rw [Tag.attributes, rawAttributes_eq htext]
  clear htext
  induction hraws with
  | nil => rfl
  | @cons a raw attributes raws ha _ ih =>
    obtain ⟨key, value⟩ := raw
    obtain ⟨rfl, hvalue⟩ : key = a.1.toList ∧ Spelling a.2.toList value := ha
    rw [List.mapM_cons, ih]
    dsimp only
    rw [unescape_eq hvalue, String.ofList_toList]
    rfl

/-- Something that an attribute can say: its key, its value, and the value that goes without
saying. -/
structure Setting where
  key : String
  value : String
  default? : Option String

/-- The attribute that says it. -/
def Setting.attribute (s : Setting) : Attribute := (s.key, s.value)

/-- It goes without saying. -/
def Setting.Optional (s : Setting) : Prop := s.default? = some s.value

/-- The attributes of the tag say this and nothing else. -/
def Tag.States (tag : Tag) (settings : List Setting) : Prop :=
  ∃ attributes, tag.Lists attributes ∧ (∀ a ∈ attributes, ∃ s ∈ settings, a = s.attribute) ∧
    ∀ s ∈ settings, s.Optional ∨ s.attribute ∈ attributes

/-! ## The plain tag -/

/-- Keys that a tag can have side by side. -/
def ProperKeys (keys : List String) : Prop := (∀ key ∈ keys, IsName key.toList) ∧ keys.Nodup

instance (keys : List String) : Decidable (ProperKeys keys) := inferInstanceAs (Decidable (_ ∧ _))

/-- The attributes that say everything, in order, every value in its plain spelling. -/
def plainAttributes (settings : List Setting) : List (List Char × List Char) :=
  settings.map fun s => (s.key.toList, plainSpelling s.value.toList)

/-- The tag that says everything. -/
def plainTag (name : String) (settings : List Setting) : Tag :=
  ⟨name, plainText (plainAttributes settings)⟩

theorem plainAttributes_wellFormed {settings : List Setting}
    (h : ProperKeys (settings.map (·.key))) :
    WellFormedText (plainAttributes settings) (plainText (plainAttributes settings)) := by
  apply plainText_wellFormed
  · intro a ha
    obtain ⟨s, hs, rfl⟩ := List.mem_map.mp ha
    exact ⟨h.1 s.key (List.mem_map_of_mem hs), not_mem_plainSpelling _⟩
  · have hkeys : (plainAttributes settings).map (·.1)
        = (settings.map (·.key)).map String.toList := by
      simp [plainAttributes]
    rw [hkeys]
    exact h.2.map fun _ _ heq => String.toList_inj.mp heq

/-- **The plain tag says what it is made of.** -/
theorem plainTag_states (name : String) {settings : List Setting}
    (h : ProperKeys (settings.map (·.key))) : (plainTag name settings).States settings := by
  refine ⟨settings.map Setting.attribute, ?_, ?_, ?_⟩
  · refine ⟨plainAttributes settings, plainAttributes_wellFormed h, ?_⟩
    rw [plainAttributes, List.forall₂_map_left_iff, List.forall₂_map_right_iff]
    exact List.forall₂_same.mpr fun s _ => ⟨rfl, spelling_plainSpelling _⟩
  · intro a ha
    obtain ⟨s, hs, rfl⟩ := List.mem_map.mp ha
    exact ⟨s, hs, rfl⟩
  · exact fun s hs => .inr (List.mem_map_of_mem hs)

/-- A tag may leave out what goes without saying. -/
theorem Tag.States.append_optional {tag : Tag} {said unsaid : List Setting} (h : tag.States said)
    (hunsaid : ∀ s ∈ unsaid, s.Optional) : tag.States (said ++ unsaid) := by
  obtain ⟨attributes, hlists, hfrom, hsaid⟩ := h
  refine ⟨attributes, hlists, fun a ha => ?_, ?_⟩
  · obtain ⟨s, hs, rfl⟩ := hfrom a ha
    exact ⟨s, List.mem_append_left _ hs, rfl⟩
  · exact List.forall_mem_append.mpr ⟨hsaid, fun s hs => .inl (hunsaid s hs)⟩

@[simp] theorem name_plainTag (name : String) (settings : List Setting) :
    (plainTag name settings).name = name := rfl

/-- The text of a plain tag, if all values are written as they are. -/
theorem rest_plainTag (name : String) {settings : List Setting}
    (h : ∀ s ∈ settings, Verbatim s.value.toList) :
    (plainTag name settings).rest =
      settings.flatMap fun s => (" " ++ s.key ++ "=\"" ++ s.value ++ "\"").toList := by
  rw [plainTag, plainText, plainAttributes, List.flatMap_map]
  refine List.flatMap_congr fun s hs => ?_
  have hvalue : plainSpelling s.value.toList = s.value.toList := h s hs
  simp [hvalue]

end Stubwright.Markup

namespace Stubwright.Library

open Java Markup

theorem attributesOf_eq {tag : Tag} {attributes : List Attribute} (h : tag.Lists attributes) :
    attributesOf tag = .ok attributes := by
  rw [attributesOf, h.attributes_eq]
  rfl

/-! ## A walk over attributes -/

section Walk

variable {Head : Type} {take : Head → Attribute → Except DocumentError Head}
  {settings : List Setting} {Holds : String → Head → Prop}

/-- **Every attribute settles what it says, for good**, if taking it in does so and spoils nothing
that was settled before. -/
theorem foldlM_settles
    (htake : ∀ s ∈ settings, ∀ head, ∃ head', take head s.attribute = .ok head' ∧
      Holds s.key head' ∧ ∀ s' ∈ settings, Holds s'.key head → Holds s'.key head')
    {attributes : List Attribute} (hfrom : ∀ a ∈ attributes, ∃ s ∈ settings, a = s.attribute)
    (head : Head) :
    ∃ head', attributes.foldlM take head = .ok head' ∧
      ∀ s ∈ settings, Holds s.key head ∨ s.attribute ∈ attributes → Holds s.key head' := by
  induction attributes generalizing head with
  | nil =>
    refine ⟨head, rfl, fun s _ h => ?_⟩
    exact h.resolve_right List.not_mem_nil
  | cons a attributes ih =>
    rw [List.forall_mem_cons] at hfrom
    obtain ⟨⟨s, hs, rfl⟩, hfrom⟩ := hfrom
    obtain ⟨next, htaken, hsettled, hkept⟩ := htake s hs head
    obtain ⟨head', hfold, hrest⟩ := ih hfrom next
    refine ⟨head', ?_, fun s' hs' h => hrest s' hs' ?_⟩
    · rw [List.foldlM_cons, htaken]
      exact hfold
    · rcases h with h | h
      · exact .inl (hkept s' hs' h)
      · rcases List.mem_cons.mp h with heq | h
        · -- the attribute itself: what has its key is settled by it
          have hkey : s'.key = s.key := congrArg Prod.fst heq
          exact .inl (hkey ▸ hsettled)
        · exact .inr h

/-- What a tag states is settled, said or not, if what goes without saying is so at the start. -/
theorem attributes_settle {tag : Tag} (h : tag.States settings) {start : Head}
    (hstart : ∀ s ∈ settings, s.Optional → Holds s.key start)
    (htake : ∀ s ∈ settings, ∀ head, ∃ head', take head s.attribute = .ok head' ∧
      Holds s.key head' ∧ ∀ s' ∈ settings, Holds s'.key head → Holds s'.key head') :
    ∃ attributes head, attributesOf tag = .ok attributes ∧
      attributes.foldlM take start = .ok head ∧ ∀ s ∈ settings, Holds s.key head := by
  obtain ⟨attributes, hlists, hfrom, hsaid⟩ := h
  obtain ⟨head, hfold, hsettled⟩ := foldlM_settles htake hfrom start
  refine ⟨attributes, head, attributesOf_eq hlists, hfold, fun s hs => hsettled s hs ?_⟩
  exact (hsaid s hs).imp_left (hstart s hs)

end Walk

/-! ## The settings of every element -/

/-- A flag as it is written. -/
def flagText (value : Bool) : String := if value then "true" else "false"

/-- A kind as it is written. Only interfaces and classes are. -/
def kindText : TypeKind → String
  | .classType => "class"
  | _ => "interface"

def typeSettings (d : Descriptor) : List Setting :=
  [⟨"name", d.name, none⟩, ⟨"kind", kindText d.kind, some "interface"⟩,
    ⟨"final", flagText d.isFinal, some "false"⟩]

def methodSettings (m : Member) : List Setting :=
  [⟨"name", m.name, none⟩, ⟨"returns", m.returns.binaryName, some "void"⟩,
    ⟨"static", flagText m.isStatic, some "false"⟩, ⟨"final", flagText m.isFinal, some "false"⟩]

/-- The name that a parameter gets anyway at its position goes without saying. -/
def parameterSettings (index : Nat) (p : Parameter) : List Setting :=
  [⟨"name", p.name, some (Parameter.defaultName index)⟩, ⟨"type", p.type.binaryName, none⟩]

/-- An element with one attribute, which it must have. -/
def singleSetting (key value : String) : List Setting := [⟨key, value, none⟩]

theorem flag_flagText (element key : String) (value : Bool) :
    flag element key (flagText value) = .ok value := by
  cases value <;> rfl

theorem flagText_eq_false {value : Bool} (h : some "false" = some (flagText value)) :
    value = false := by
  cases value with
  | false => rfl
  | true => exact absurd h (by decide)

theorem ofAttribute?_kindText {kind : TypeKind} (h : kind = .interfaceType ∨ kind = .classType) :
    TypeKind.ofAttribute? (kindText kind) = some kind := by
  rcases h with rfl | rfl <;> decide +kernel

theorem typeNamed_binaryName {t : JavaType} (h : Readable t) (element key : String) :
    typeNamed element key t.binaryName = .ok t := by
  rw [typeNamed, JavaType.ofName?_binaryName h]

/-! ## What is read of them -/

/-- What is settled of a type by the attribute with the key. -/
def TypeHead.Has (d : Descriptor) (key : String) (head : TypeHead) : Prop :=
  match key with
  | "name" => head.name? = some d.name
  | "kind" => head.kind = d.kind
  | "final" => head.isFinal = d.isFinal
  | _ => True

/-- **Every tag that states a type is read as the type**, before its content. -/
theorem typeOf_eq {tag : Tag} {d : Descriptor} (h : tag.States (typeSettings d)) {name : String}
    (hname : JavaType.ofName? d.name = some (.reference name))
    (hkind : d.kind = .interfaceType ∨ d.kind = .classType) :
    typeOf tag = .ok { name := d.name, kind := d.kind, isFinal := d.isFinal } := by
  have hstart : ∀ s ∈ typeSettings d, s.Optional → TypeHead.Has d s.key {} := by
    intro s hs hoptional
    simp only [typeSettings, List.mem_cons, List.not_mem_nil, or_false] at hs
    rcases hs with rfl | rfl | rfl
    · cases hoptional
    · rcases hkind with hkind | hkind
      · exact hkind.symm
      · rw [Setting.Optional, hkind] at hoptional
        exact absurd hoptional (by decide)
    · exact (flagText_eq_false hoptional).symm
  have htake : ∀ s ∈ typeSettings d, ∀ head, ∃ head', TypeHead.take head s.attribute = .ok head' ∧
      TypeHead.Has d s.key head' ∧
      ∀ s' ∈ typeSettings d, TypeHead.Has d s'.key head → TypeHead.Has d s'.key head' := by
    intro s hs head
    simp only [typeSettings, List.mem_cons, List.not_mem_nil, or_false] at hs
    rcases hs with rfl | rfl | rfl
    · refine ⟨{ head with name? := some d.name }, rfl, rfl, ?_⟩
      simp [typeSettings, TypeHead.Has]
    · refine ⟨{ head with kind := d.kind }, ?_, rfl, ?_⟩
      · rw [Setting.attribute, TypeHead.take, ofAttribute?_kindText hkind]
      · simp [typeSettings, TypeHead.Has]
    · refine ⟨{ head with isFinal := d.isFinal }, ?_, rfl, ?_⟩
      · rw [Setting.attribute, TypeHead.take, flag_flagText]
        rfl
      · simp [typeSettings, TypeHead.Has]
  -- with all of it settled, the head is known
  obtain ⟨attributes, head, hattributes, hfold, hhas⟩ := attributes_settle h hstart htake
  obtain ⟨hhead, hkind, hfinal⟩ : head.name? = some d.name ∧ head.kind = d.kind ∧
      head.isFinal = d.isFinal := by
    simpa [typeSettings, TypeHead.Has] using hhas
  simp only [typeOf, hattributes, ok_bind, hfold, hhead, hname, hkind, hfinal]
  rfl

/-- What is settled of a method by the attribute with the key. -/
def MethodHead.Has (m : Member) (key : String) (head : MethodHead) : Prop :=
  match key with
  | "name" => head.name? = some m.name
  | "returns" => head.returns = m.returns
  | "static" => head.isStatic = m.isStatic
  | "final" => head.isFinal = m.isFinal
  | _ => True

/-- **Every tag that states a method is read as the method**, before its content. -/
theorem methodOf_eq {tag : Tag} {m : Member} (h : tag.States (methodSettings m))
    (hreturns : Readable m.returns) :
    methodOf tag = .ok ⟨m.name, m.returns, [], [], [], m.isStatic, m.isFinal⟩ := by
  have hstart : ∀ s ∈ methodSettings m, s.Optional → MethodHead.Has m s.key {} := by
    intro s hs hoptional
    simp only [methodSettings, List.mem_cons, List.not_mem_nil, or_false] at hs
    rcases hs with rfl | rfl | rfl | rfl
    · cases hoptional
    · -- only `void` has this name
      have hvoid : m.returns.binaryName = "void" := (Option.some.inj hoptional).symm
      have hread := JavaType.ofName?_binaryName hreturns
      rw [hvoid] at hread
      have hknown : JavaType.ofName? "void" = some (.primitive .void) := by decide +kernel
      exact Option.some.inj (hknown.symm.trans hread)
    · exact (flagText_eq_false hoptional).symm
    · exact (flagText_eq_false hoptional).symm
  have htake : ∀ s ∈ methodSettings m, ∀ head, ∃ head',
      MethodHead.take head s.attribute = .ok head' ∧ MethodHead.Has m s.key head' ∧
      ∀ s' ∈ methodSettings m, MethodHead.Has m s'.key head → MethodHead.Has m s'.key head' := by
    intro s hs head
    simp only [methodSettings, List.mem_cons, List.not_mem_nil, or_false] at hs
    rcases hs with rfl | rfl | rfl | rfl
    · refine ⟨{ head with name? := some m.name }, rfl, rfl, ?_⟩
      simp [methodSettings, MethodHead.Has]
    · refine ⟨{ head with returns := m.returns }, ?_, rfl, ?_⟩
      · rw [Setting.attribute, MethodHead.take, typeNamed_binaryName hreturns]
        rfl
      · simp [methodSettings, MethodHead.Has]
    · refine ⟨{ head with isStatic := m.isStatic }, ?_, rfl, ?_⟩
      · rw [Setting.attribute, MethodHead.take, flag_flagText]
        rfl
      · simp [methodSettings, MethodHead.Has]
    · refine ⟨{ head with isFinal := m.isFinal }, ?_, rfl, ?_⟩
      · rw [Setting.attribute, MethodHead.take, flag_flagText]
        rfl
      · simp [methodSettings, MethodHead.Has]
  obtain ⟨attributes, head, hattributes, hfold, hhas⟩ := attributes_settle h hstart htake
  obtain ⟨hhead, hreturns, hstatic, hfinal⟩ : head.name? = some m.name ∧
      head.returns = m.returns ∧ head.isStatic = m.isStatic ∧ head.isFinal = m.isFinal := by
    simpa [methodSettings, MethodHead.Has] using hhas
  simp only [methodOf, hattributes, ok_bind, hfold, hhead, hreturns, hstatic, hfinal]
  rfl

/-- What is settled of a parameter by the attribute with the key. -/
def ParameterHead.Has (index : Nat) (p : Parameter) (key : String) (head : ParameterHead) : Prop :=
  match key with
  | "name" => head.name?.getD (Parameter.defaultName index) = p.name
  | "type" => head.type? = some p.type
  | _ => True

/-- **Every tag that states a parameter is read as the parameter** at its position. -/
theorem parameterOf_eq {tag : Tag} {index : Nat} {p : Parameter}
    (h : tag.States (parameterSettings index p)) (hname : p.name ≠ "") (htype : Readable p.type) :
    parameterOf index tag = .ok p := by
  have hstart : ∀ s ∈ parameterSettings index p, s.Optional →
      ParameterHead.Has index p s.key {} := by
    intro s hs hoptional
    simp only [parameterSettings, List.mem_cons, List.not_mem_nil, or_false] at hs
    rcases hs with rfl | rfl
    · exact Option.some.inj hoptional
    · cases hoptional
  have htake : ∀ s ∈ parameterSettings index p, ∀ head, ∃ head',
      ParameterHead.take head s.attribute = .ok head' ∧ ParameterHead.Has index p s.key head' ∧
      ∀ s' ∈ parameterSettings index p,
        ParameterHead.Has index p s'.key head → ParameterHead.Has index p s'.key head' := by
    intro s hs head
    simp only [parameterSettings, List.mem_cons, List.not_mem_nil, or_false] at hs
    rcases hs with rfl | rfl
    · refine ⟨{ head with name? := some p.name }, ?_, rfl, ?_⟩
      · have hne : p.name.isEmpty = false := by simpa using hname
        rw [Setting.attribute, ParameterHead.take, hne]
        rfl
      · simp [parameterSettings, ParameterHead.Has]
    · refine ⟨{ head with type? := some p.type }, ?_, rfl, ?_⟩
      · rw [Setting.attribute, ParameterHead.take, typeNamed_binaryName htype]
        rfl
      · simp [parameterSettings, ParameterHead.Has]
  obtain ⟨attributes, head, hattributes, hfold, hhas⟩ := attributes_settle h hstart htake
  obtain ⟨hname, htype⟩ : head.name?.getD (Parameter.defaultName index) = p.name ∧
      head.type? = some p.type := by
    simpa [parameterSettings, ParameterHead.Has] using hhas
  simp only [parameterOf, hattributes, ok_bind, hfold, hname, htype]
  rfl

/-- **A tag that states one attribute is read as its value.** -/
theorem required_eq {tag : Tag} {key value : String} (h : tag.States (singleSetting key value))
    (element : String) : required element key tag = .ok value := by
  obtain ⟨attributes, hlists, hfrom, hsaid⟩ := h
  have hvalue : valueOf? key attributes = some value := by
    have hmem : (key, value) ∈ attributes :=
      (hsaid ⟨key, value, none⟩ List.mem_cons_self).resolve_left (by simp [Setting.Optional])
    have hall : ∀ a ∈ attributes, a = (key, value) := by
      intro a ha
      obtain ⟨s, hs, rfl⟩ := hfrom a ha
      rw [List.mem_singleton.mp hs]
      rfl
    obtain ⟨a, rest, rfl⟩ := List.exists_cons_of_ne_nil (List.ne_nil_of_mem hmem)
    rw [hall a List.mem_cons_self]
    simp [valueOf?]
  simp only [required, attributesOf_eq hlists, ok_bind, hvalue]
  rfl

end Stubwright.Library

import Stubwright.Library.Sample
import Stubwright.Proofs.Arrangement
import Stubwright.Proofs.Declarations
import Stubwright.Proofs.OwnMembers
import Stubwright.Proofs.Resolution

/-!
# The sample document

    sizes ──document──▶ text ──ofDocument──▶ ladder ──validate──▶ valid ──members──▶ own members

`Sample.document` prints a document of any size, line by line. Which library it is meant to hold is
said by `Sample.ladder`: interfaces with numbered names, each but the first below the one before,
all with methods of the same numbered names. Main statement (`ofDocument_ladder`): the reader gets
exactly this library from the document, the library is valid, and the stub of each of its types has
the members that the type declares itself and no others.

The printer leaves out what goes without saying and breaks lines, so its text is not the plain
document; it is one of those that hold the elements of the ladder (`written_document`). All else
rests on numerals: a name with a number is an identifier (`isIdentifier_numbered`), and no two
numbers give the same name (`numbered_injective`).
-/

namespace Stubwright

namespace Java

open Markup

/-! ## Numbered names -/

theorem toList_numbered (stem : String) (n : Nat) :
    (stem ++ toString n).toList = stem.toList ++ Nat.toDigits 10 n := by
  rw [String.toList_append, Nat.toString_eq_repr, Nat.toList_repr]

theorem isDigit_of_mem_numeral {n : Nat} {c : Char} (h : c ∈ Nat.toDigits 10 n) :
    c.isDigit = true :=
  Nat.isDigit_of_mem_toDigits (by decide) (by decide) h

theorem isIdentifierPart_of_isDigit {c : Char} (h : c.isDigit = true) :
    isIdentifierPart c = true := by
  have hascii : c.toNat < 0x80 := by
    simp only [Char.isDigit, Bool.and_eq_true, decide_eq_true_iff] at h
    have hle : c.val.toNat ≤ 57 := h.2
    show c.val.toNat < 128
    omega
  simp [isIdentifierPart, Text.isDigit, hascii, h]

/-- No reserved word has a digit. -/
theorem isDigit_of_mem_reserved {w : String} (hw : w ∈ reservedWords) {c : Char}
    (hc : c ∈ w.toList) : c.isDigit = false := by
  have hplain : (reservedWords.all fun w => w.toList.all (!·.isDigit)) = true := by decide
  simp only [List.all_eq_true, Bool.not_eq_true'] at hplain
  exact hplain w hw c hc

/-- **An identifier with a number behind it is an identifier.** -/
theorem isIdentifier_numbered {stem : String} (h : isIdentifier stem = true) (n : Nat) :
    isIdentifier (stem ++ toString n) = true := by
  have hreserved : stem ++ toString n ∉ reservedWords := by
    intro hmem
    obtain ⟨c, hc⟩ := List.exists_mem_of_ne_nil _ (Nat.toDigits_ne_nil (n := n) (b := 10))
    have htext : c ∈ (stem ++ toString n).toList := by
      rw [toList_numbered]
      exact List.mem_append_right _ hc
    have hnone := isDigit_of_mem_reserved hmem htext
    rw [isDigit_of_mem_numeral hc] at hnone
    cases hnone
  unfold isIdentifier at h ⊢
  rw [toList_numbered]
  cases hstem : stem.toList with
  | nil =>
    rw [hstem] at h
    cases h
  | cons c rest =>
    rw [hstem] at h
    simp only [Bool.and_eq_true, List.all_eq_true] at h
    obtain ⟨⟨hstart, hrest⟩, -⟩ := h
    simp only [List.cons_append, Bool.and_eq_true, List.all_eq_true, List.forall_mem_append]
    refine ⟨⟨hstart, hrest, fun d hd => ?_⟩, by simpa using hreserved⟩
    exact isIdentifierPart_of_isDigit (isDigit_of_mem_numeral hd)

theorem isSegment_numbered {stem : String} (h : IsSegment stem.toList) (n : Nat) :
    IsSegment (stem ++ toString n).toList := by
  obtain ⟨hword, hdollar⟩ := h
  rw [IsWord, String.ofList_toList] at hword
  constructor
  · rw [IsWord, String.ofList_toList]
    exact isIdentifier_numbered hword n
  · rw [toList_numbered, List.mem_append]
    rintro (hmem | hmem)
    · exact hdollar hmem
    · exact absurd (isDigit_of_mem_numeral hmem) (by decide)

/-- **Names with different numbers are different.** -/
theorem numbered_injective (stem : String) :
    Function.Injective fun n : Nat => stem ++ toString n := by
  intro a b (h : stem ++ toString a = stem ++ toString b)
  have hdigits : Nat.toDigits 10 a = Nat.toDigits 10 b := by
    have hlist := congrArg String.toList h
    rwa [toList_numbered, toList_numbered, List.append_cancel_left_eq] at hlist
  -- the digits say which number it is
  rw [← Nat.ofDigitChars_ten_toDigits (n := a), hdigits, Nat.ofDigitChars_ten_toDigits]

/-- No character of a binary name has to be replaced where it is written. -/
theorem BinaryName.verbatim {s : String} (h : BinaryName s) : Verbatim s.toList := by
  refine verbatim_of_plain fun c hc => ?_
  rcases h.forall_mem c hc with hpart | rfl
  · have hne : ∀ d, isIdentifierPart d = false → c ≠ d := by
      rintro d hd rfl
      rw [hpart] at hd
      cases hd
    exact ⟨hne _ (by decide), hne _ (by decide), hne _ (by decide)⟩
  · decide

end Java

namespace Library.Sample

open Java Markup Stub

variable {types methods t : Nat}

/-! ## The ladder -/

def typeName (t : Nat) : String := "bench.Type" ++ toString t

/-- The method with the given number. -/
def rungMethod (i : Nat) : Member where
  name := "m" ++ toString i
  returns := returnType i
  parameters := [⟨"x", .primitive .int⟩]

/-- The interface with the given number; every one but the first is below the one before. -/
def rung (methods t : Nat) : Descriptor where
  name := typeName t
  kind := .interfaceType
  supertypes := if t = 0 then [] else [typeName (t - 1)]
  members := (List.range methods).map rungMethod

theorem typeName_injective : Function.Injective typeName := numbered_injective "bench.Type"

/-- The library of so many interfaces with so many methods each. -/
def ladder (types methods : Nat) : Library where
  types := (List.range types).map (rung methods)
  distinct := by
    rw [List.map_map]
    exact List.nodup_range.map typeName_injective

theorem mem_ladder {d : Descriptor} :
    d ∈ (ladder types methods).types ↔ ∃ t < types, rung methods t = d := by
  simp [ladder]

/-! ### Its names and types -/

/-- The words that names are made of. -/
theorem isSegment_word : ∀ w ∈ ["bench", "Type", "m", "x"], IsSegment w.toList := by
  unfold IsSegment
  decide

theorem binaryName_typeName (t : Nat) : BinaryName (typeName t) := by
  have hpackage : IsSegment "bench".toList := isSegment_word "bench" (by decide)
  have hclass : IsSegment ("Type" ++ toString t).toList :=
    isSegment_numbered (isSegment_word "Type" (by decide)) t
  have hlist : (typeName t).toList = "bench".toList ++ '.' :: ("Type" ++ toString t).toList := by
    simp [typeName]
  rw [BinaryName, hlist]
  exact .join hpackage rfl (.single hclass)

theorem isSegment_methodName (i : Nat) : IsSegment (rungMethod i).name.toList :=
  isSegment_numbered (isSegment_word "m" (by decide)) i

theorem ofName?_typeName (t : Nat) :
    JavaType.ofName? (typeName t) = some (.reference (typeName t)) :=
  ofName?_eq_reference_iff.mpr (binaryName_typeName t).className

theorem binaryName_returnType (i : Nat) : (returnType i).binaryName = returnTypeName i := by
  unfold returnTypeName returnType
  split <;> rfl

/-- A return type is primitive, or it is the class of texts. -/
theorem returnType_cases (i : Nat) :
    (∃ p, returnType i = .primitive p) ∨ returnType i = .reference "java.lang.String" := by
  unfold returnType
  split
  · exact .inl ⟨_, rfl⟩
  · exact .inl ⟨_, rfl⟩
  · exact .inr rfl
  · exact .inl ⟨_, rfl⟩

theorem binaryName_string : BinaryName "java.lang.String" :=
  isBinaryName_iff.mp (by decide)

theorem readable_returnType (i : Nat) : Readable (returnType i) := by
  rcases returnType_cases i with ⟨p, hp⟩ | hstring
  · rw [hp]
    exact readable_primitive p
  · rw [hstring]
    exact readable_reference_iff.mpr binaryName_string.className

theorem readable_rungMethod (i : Nat) : ∀ t ∈ (rungMethod i).types, Readable t :=
  Member.forall_mem_types.mpr ⟨readable_returnType i,
    List.forall_mem_singleton.mpr (readable_primitive .int), List.forall_mem_nil _⟩

theorem writable_rungMethod (i : Nat) : WritableMember (rungMethod i) where
  returns := readable_returnType i
  parameters := List.forall_mem_singleton.mpr ⟨by decide, readable_primitive .int⟩
  exceptions := List.forall_mem_nil _

theorem writable_rung (methods t : Nat) : WritableType (rung methods t) where
  name := ⟨typeName t, ofName?_typeName t⟩
  kind := .inl rfl
  members := List.forall_mem_map.mpr fun i _ => writable_rungMethod i

/-! ## Its document -/

/-- What is said of a method: it is neither static nor final anyway. -/
def saidOfMethod (i : Nat) : List Setting :=
  [⟨"name", (rungMethod i).name, none⟩, ⟨"returns", (returnType i).binaryName, some "void"⟩]

def methodElement (i : Nat) : Element :=
  .paired (plainTag "method" (saidOfMethod i))
    [plainLeaf "param" (parameterSettings 0 ⟨"x", .primitive .int⟩)]

/-- The element of the supertype; the first type has none. -/
def supertypeElements (t : Nat) : List Element :=
  (rung 0 t).supertypes.map fun name => plainLeaf "extends" (singleSetting "type" name)

/-- Only the name of a type is said: it is an interface and not final anyway. -/
def rungElement (methods t : Nat) : Element :=
  .paired (plainTag "type" (singleSetting "name" (typeName t)))
    (supertypeElements t ++ (List.range methods).map methodElement)

def ladderElement (types methods : Nat) : Element :=
  .paired (plainTag "typeLibrary" []) ((List.range types).map (rungElement methods))

theorem properKeys_saidOfMethod (i : Nat) : ProperKeys ((saidOfMethod i).map (·.key)) := by
  show ProperKeys ["name", "returns"]
  decide

/-! ### It says what it should -/

theorem methodOf_methodElement (i : Nat) : MethodOf (rungMethod i) (methodElement i) where
  name := rfl
  states := (plainTag_states "method" (properKeys_saidOfMethod i)).append_optional
    (List.forall_mem_cons.mpr ⟨rfl, List.forall_mem_singleton.mpr rfl⟩)
  parts := .parameter (leafOf_plainLeaf _ (properKeys_parameterSettings 0 _)) .nil

theorem typeOf_rungElement (methods t : Nat) : TypeOf (rung methods t) (rungElement methods t) where
  name := rfl
  states :=
    (plainTag_states "type" (properKeys_singleSetting (by decide) (typeName t))).append_optional
      (List.forall_mem_cons.mpr ⟨rfl, List.forall_mem_singleton.mpr rfl⟩)
  declarations := by
    refine declarationsOf_methods ?_ _
    rw [show (rung methods t).members = (List.range methods).map rungMethod from rfl,
      List.forall₂_map_left_iff, List.forall₂_map_right_iff]
    exact List.forall₂_same.mpr fun i _ => methodOf_methodElement i

/-! ### It is what is printed -/

theorem blanks_margin (n : Nat) : Blanks (List.replicate n ' ') := by
  intro c hc
  rw [List.eq_of_mem_replicate hc]
  rfl

theorem blanks_newline : Blanks ['\n'] := by decide

theorem written_methodLine (i : Nat) : Written [methodElement i] (methodLine i).toList := by
  have hmethod : (plainTag "method" (saidOfMethod i)).WellFormed :=
    wellFormed_plainTag (by decide) (properKeys_saidOfMethod i)
  have hparam : (plainTag "param" (parameterSettings 0 ⟨"x", .primitive .int⟩)).WellFormed :=
    wellFormed_plainTag (by decide) (properKeys_parameterSettings 0 _)
  have hvalues : ∀ s ∈ saidOfMethod i, Verbatim s.value.toList := by
    refine List.forall_mem_cons.mpr ⟨?_, List.forall_mem_singleton.mpr ?_⟩
    · exact BinaryName.verbatim (.single (isSegment_methodName i))
    · show Verbatim (returnType i).binaryName.toList
      rw [binaryName_returnType]
      unfold returnTypeName
      split <;> rfl
  have hparamValues : ∀ s ∈ parameterSettings 0 ⟨"x", .primitive .int⟩,
      Verbatim s.value.toList :=
    List.forall_mem_cons.mpr ⟨rfl, List.forall_mem_singleton.mpr rfl⟩
  have hwritten := Written.paired (blanks_margin 8).filler hmethod
    (.single .nil hparam (.done .nil)) (List.forall_mem_nil _) (.done blanks_newline.filler)
  rw [rest_plainTag "method" hvalues, rest_plainTag "param" hparamValues] at hwritten
  unfold methodLine methodElement plainLeaf
  simpa [saidOfMethod, rungMethod, binaryName_returnType, parameterSettings, JavaType.binaryName,
    Primitive.keyword] using hwritten

theorem written_extendsLine (t : Nat) :
    Written (supertypeElements t) (if t = 0 then ""
      else "        <extends type=\"bench.Type" ++ toString (t - 1) ++ "\"/>\n").toList := by
  unfold supertypeElements rung
  by_cases ht : t = 0
  · rw [if_pos ht, if_pos ht]
    exact .done .nil
  · have htag : (plainTag "extends" (singleSetting "type" (typeName (t - 1)))).WellFormed :=
      wellFormed_plainTag (by decide) (properKeys_singleSetting (by decide) _)
    have hvalue : ∀ s ∈ singleSetting "type" (typeName (t - 1)), Verbatim s.value.toList :=
      List.forall_mem_singleton.mpr (binaryName_typeName (t - 1)).verbatim
    have hwritten := Written.single (blanks_margin 8).filler htag (.done blanks_newline.filler)
    rw [rest_plainTag "extends" hvalue] at hwritten
    rw [if_neg ht, if_neg ht]
    simpa [singleSetting, typeName, plainLeaf] using hwritten

theorem written_typeLines (methods t : Nat) :
    Written [rungElement methods t] (typeLines methods t).toList := by
  have htag : (plainTag "type" (singleSetting "name" (typeName t))).WellFormed :=
    wellFormed_plainTag (by decide) (properKeys_singleSetting (by decide) _)
  have hvalue : ∀ s ∈ singleSetting "name" (typeName t), Verbatim s.value.toList :=
    List.forall_mem_singleton.mpr (binaryName_typeName t).verbatim
  have hmethods := written_join written_methodLine (List.range methods)
  have hinside := (((written_extendsLine t).append hmethods).behind
    blanks_newline.filler).append (.done (blanks_margin 4).filler)
  rw [List.append_nil] at hinside
  have hwritten := Written.paired (blanks_margin 4).filler htag hinside (List.forall_mem_nil _)
    (.done blanks_newline.filler)
  rw [rest_plainTag "type" hvalue] at hwritten
  unfold typeLines
  -- the line of the supertype is in there as it is
  generalize (if t = 0 then _ else _ : String) = extendsLine at hwritten ⊢
  unfold rungElement
  simpa [singleSetting, typeName, -String.toList_join] using hwritten

/-- **The document holds the ladder.** -/
theorem written_document (types methods : Nat) :
    Written [ladderElement types methods] (document types methods).toList := by
  have htag : (plainTag "typeLibrary" []).WellFormed := wellFormed_plainTag (by decide) (by decide)
  have htypes := written_join (written_typeLines methods) (List.range types)
  have hwritten := Written.paired .nil htag (htypes.behind blanks_newline.filler)
    (List.forall_mem_nil _) (.done blanks_newline.filler)
  rw [rest_plainTag "typeLibrary" (List.forall_mem_nil _)] at hwritten
  unfold document ladderElement
  simpa [-String.toList_join] using hwritten

/-- The document is read as the ladder. -/
theorem ofDocument_document (types methods : Nat) :
    ofDocument (document types methods) = .ok (ladder types methods) := by
  have hroot : IsLibraryElement (ladderElement types methods) :=
    ⟨rfl, List.forall_mem_map.mpr fun t _ => (typeOf_rungElement methods t).isTypeElement⟩
  refine (ofDocument_eq_ok_iff hroot (written_document types methods)).mpr ?_
  show List.Forall₂ _ ((List.range types).map (rungElement methods))
    ((List.range types).map (rung methods))
  rw [List.forall₂_map_left_iff, List.forall₂_map_right_iff]
  exact List.forall₂_same.mpr fun t _ =>
    (typeOf_rungElement methods t).declared (writable_rung methods t)

/-! ## It is valid -/

theorem nodup_keys_rung (methods t : Nat) : ((rung methods t).members.map Member.key).Nodup := by
  have hinj : Function.Injective (Member.key ∘ rungMethod) := fun i j h =>
    numbered_injective "m" (congrArg MemberKey.name h)
  rw [show (rung methods t).members = (List.range methods).map rungMethod from rfl, List.map_map]
  exact List.nodup_range.map hinj

theorem legal_primitive (p : Primitive) : ¬ IllegalType BinaryName (.primitive p) := by
  rw [illegalType_iff]
  rintro (⟨n, hn, -⟩ | ⟨harray, -⟩)
  · cases hn
  · cases harray

theorem legal_reference {n : String} (hn : BinaryName n) :
    ¬ IllegalType BinaryName (.reference n) := by
  rw [illegalType_iff]
  rintro (⟨n', hn', hillegal⟩ | ⟨harray, -⟩)
  · cases hn'
    exact hillegal hn
  · cases harray

theorem legal_returnType (i : Nat) : ¬ IllegalType BinaryName (returnType i) := by
  rcases returnType_cases i with ⟨p, hp⟩ | hstring
  · rw [hp]
    exact legal_primitive p
  · rw [hstring]
    exact legal_reference binaryName_string

theorem legal_rungMethod (i : Nat) : LegalMember (rungMethod i) where
  name := by
    have hword := (isSegment_methodName i).1
    rwa [IsWord, String.ofList_toList] at hword
  types := Member.forall_mem_types.mpr ⟨legal_returnType i,
    List.forall_mem_singleton.mpr (legal_primitive .int), List.forall_mem_nil _⟩
  notVoid := List.forall_mem_singleton.mpr rfl
  parameterNames := List.forall_mem_singleton.mpr (isSegment_word "x" (by decide)).1
  distinct := List.nodup_singleton _
  exceptions := List.forall_mem_nil _

theorem legal_rung (methods t : Nat) : Legal (rung methods t) where
  name := binaryName_typeName t
  supertypes := by
    unfold rung
    split
    · exact List.forall_mem_nil _
    · exact List.forall_mem_singleton.mpr ⟨_, ofName?_typeName _, binaryName_typeName _⟩
  members := List.forall_mem_map.mpr fun i _ => legal_rungMethod i
  distinct := nodup_keys_rung methods t

/-- The supertypes of a type are before it. -/
theorem inherits_ladder {a b : String} (h : (ladder types methods).Inherits a b) :
    ∃ t, a = typeName (t + 1) ∧ b = typeName t := by
  obtain ⟨d, hd, rfl, hb, -⟩ := h
  obtain ⟨t, -, rfl⟩ := mem_ladder.mp hd
  cases t with
  | zero => cases hb
  | succ t => exact ⟨t, rfl, List.mem_singleton.mp hb⟩

/-- A way over supertypes leads down. -/
theorem lower_of_transGen {a b : String}
    (h : Relation.TransGen (ladder types methods).Inherits a b) :
    ∃ s t, s < t ∧ a = typeName t ∧ b = typeName s := by
  induction h with
  | single hab =>
    obtain ⟨t, ha, hb⟩ := inherits_ladder hab
    exact ⟨t, t + 1, Nat.lt_succ_self t, ha, hb⟩
  | tail _ hbc ih =>
    obtain ⟨s, t, hlt, ha, hb⟩ := ih
    obtain ⟨r, hb', hc⟩ := inherits_ladder hbc
    have hs : s = r + 1 := typeName_injective (hb.symm.trans hb')
    exact ⟨r, t, by omega, ha, hc⟩

theorem validate_ladder (types methods : Nat) : (ladder types methods).validate = .ok () := by
  refine validate_iff_not_cyclic.mpr ⟨fun d hd => ?_, ?_⟩
  · obtain ⟨t, -, rfl⟩ := mem_ladder.mp hd
    have hread : ∀ m ∈ (rung methods t).members, ∀ u ∈ m.types, Readable u :=
      List.forall_mem_map.mpr fun i _ => readable_rungMethod i
    exact (checkType_eq_ok_iff_legal hread).mpr (legal_rung methods t)
  · rintro ⟨name, hcycle⟩
    obtain ⟨s, t, hlt, ht, hs⟩ := lower_of_transGen hcycle
    have heq : s = t := typeName_injective (hs.symm.trans ht)
    omega

/-! ## What its types are left with -/

theorem checkTarget_rung (methods t : Nat) : checkTarget (rung methods t) = .ok () := by
  have hname : isBlankName (typeName t) = false := by
    rw [isBlankName, (binaryName_typeName t).className.bare, List.isEmpty_eq_false_iff]
    exact (binaryName_typeName t).ne_nil
  have hdefect : targetDefect? (rung methods t) = none := by
    show (if isBlankName (typeName t) then _ else _) = _
    rw [hname]
    rfl
  rw [checkTarget, hdefect]

/-- Every type meets all types before it. -/
theorem mem_lineage_rung {s : Nat} (hs : s ≤ t) (ht : t < types) :
    rung methods s ∈ lineage (ladder types methods) (rung methods t) := by
  have hT : rung methods t ∈ (ladder types methods).types := mem_ladder.mpr ⟨t, ht, rfl⟩
  rw [mem_lineage_iff (noNamesake_of_mem hT)]
  -- one supertype further down each time
  induction hs using Nat.decreasingInduction with
  | self => exact .self
  | of_succ k hk ih =>
    have hget : (ladder types methods).get? (typeName k) = some (rung methods k) :=
      get?_eq_some_iff.mpr ⟨mem_ladder.mpr ⟨k, hk.trans ht, rfl⟩, rfl⟩
    exact ih.next (List.mem_singleton_self (typeName k)) hget

/-- All types declare the same members. -/
theorem shadows_rung (ht : t < types) : Shadows (ladder types methods) (rung methods t) := by
  have hT : rung methods t ∈ (ladder types methods).types := mem_ladder.mpr ⟨t, ht, rfl⟩
  intro D hD k d hd
  have hD := ((mem_lineage_iff (noNamesake_of_mem hT)).mp hD).mem_types hT
  obtain ⟨s, -, rfl⟩ := mem_ladder.mp hD
  exact ⟨d, hd⟩

theorem members_rung (ht : t < types) :
    members (ladder types methods) (rung methods t)
      = .ok ((List.range methods).map rungMethod) := by
  have hown : own (rung methods t) = (List.range methods).map rungMethod :=
    List.filter_eq_self.mpr (List.forall_mem_map.mpr fun i _ => rfl)
  rw [← hown]
  exact (shadows_rung ht).members_eq (mem_ladder.mpr ⟨t, ht, rfl⟩) (checkTarget_rung methods t)
    (nodup_keys_rung methods t)

/-! ## What the document is for -/

/-- **The sample document is a valid library in which every type shadows what it inherits.** For all
sizes, the reader finds exactly the types that are meant, in order: interfaces with numbered names,
each but the first with the one before as its only supertype, all with the numbered methods. The
library is valid, and the members of each type are its own, although it meets all types before. -/
theorem ofDocument_ladder (types methods : Nat) :
    ∃ L, ofDocument (document types methods) = .ok L ∧
      L.types = (List.range types).map (rung methods) ∧ L.validate = .ok () ∧
      ∀ t < types, (∀ s ≤ t, rung methods s ∈ lineage L (rung methods t)) ∧
        Shadows L (rung methods t) ∧
        members L (rung methods t) = .ok ((List.range methods).map rungMethod) := by
  refine ⟨ladder types methods, ofDocument_document types methods, rfl,
    validate_ladder types methods, fun t ht => ⟨?_, shadows_rung ht, members_rung ht⟩⟩
  intro s hs
  exact mem_lineage_rung hs ht

theorem ofDocument_ladder_three :
    ∃ L, ofDocument (document 3 5) = .ok L ∧ L.validate = .ok () ∧
      L.names = ["bench.Type0", "bench.Type1", "bench.Type2"] ∧ 2 < 3 ∧
      ∃ ms, members L (rung 5 2) = .ok ms ∧ ms.map (·.name) = ["m0", "m1", "m2", "m3", "m4"] := by
  obtain ⟨L, hread, htypes, hvalid, hmembers⟩ := ofDocument_ladder 3 5
  have hnames : L.names = ["bench.Type0", "bench.Type1", "bench.Type2"] := by
    rw [names, htypes]
    decide
  have htop : 2 < 3 := by decide
  exact ⟨L, hread, hvalid, hnames, htop, _, (hmembers 2 htop).2.2, by decide⟩

end Library.Sample

end Stubwright

import Stubwright.Proofs.Words
import Stubwright.Stub.Signature

/-!
# Signatures are read back

    member ──signature──▶ text ──readHead──▶ Head
       └──key──▶ MemberKey ──Head.ofKey──────────▲

Source text tells the methods of a class apart by their names and the names of their parameter types.
`readHead` reads these off a signature. Main statement (`readHead_signature`): of a legal member it
reads the name and the parameter types by their full names. These are the library names in the key,
with a dot for every dollar sign (`head_ofKey_key`).
-/

namespace Stubwright

namespace Java.JavaType

theorem dotted_keyword (p : Primitive) : dotted p.keyword = p.keyword := by
  apply String.toList_inj.mp
  rw [dotted, String.toList_map]
  cases p <;> decide

/-- The full name of a type is its library name with a dot for every dollar sign. -/
theorem canonicalName_eq_dotted (t : JavaType) : t.canonicalName = dotted t.binaryName := by
  induction t with
  | primitive p => exact (dotted_keyword p).symm
  | reference n => rfl
  | array element ih =>
    rw [canonicalName, binaryName, ih]
    apply String.toList_inj.mp
    simp [dotted]

end Java.JavaType

namespace Stub

open Java Library

/-! ## Reading -/

/-- What source text tells a method by: its name and the full names of its parameter types. -/
structure Head where
  name : String
  parameterTypes : List String
  deriving DecidableEq, Repr

/-- The text in front of the first such character. -/
def before (c : Char) (cs : List Char) : List Char := cs.takeWhile (· ≠ c)

/-- The text behind the first such character. -/
def behind (c : Char) (cs : List Char) : List Char := (cs.dropWhile (· ≠ c)).tail

/-- The type of a parameter: the first word of its text. -/
def readParameter (cs : List Char) : String := String.ofList (before ' ' (cs.dropWhile (· = ' ')))

/-- The types of the parameters between two parentheses. -/
def readParameters (cs : List Char) : List String :=
  if cs.isEmpty then [] else (cs.splitOn ',').map readParameter

/-- The head of a method, read off its signature. -/
def readHead (signature : String) : Head :=
  -- the modifier and the return type come first, each with a blank behind it
  let method := behind ' ' (behind ' ' signature.toList)
  { name := String.ofList (before '(' method)
    parameterTypes := readParameters (before ')' (behind '(' method)) }

/-- The head under which a key appears in source text. -/
def Head.ofKey (k : MemberKey) : Head := ⟨k.name, k.parameterTypes.map JavaType.dotted⟩

theorem head_ofKey_key (m : Member) :
    Head.ofKey m.key = ⟨m.name, m.parameters.map (·.type.canonicalName)⟩ := by
  simp [Head.ofKey, Member.key, JavaType.canonicalName_eq_dotted, Function.comp_def]

/-! ## Words -/

/-- The characters that a signature is divided by. -/
def marks : List Char := [' ', ',', '(', ')']

/-- What holds of every mark, one by one. -/
theorem forall_mem_marks {P : Char → Prop} :
    (∀ c ∈ marks, P c) ↔ P ' ' ∧ P ',' ∧ P '(' ∧ P ')' := by
  simp [marks]

/-- A text that no mark divides. -/
structure Undivided (cs : List Char) : Prop where
  ne_nil : cs ≠ []
  not_mem : ∀ c ∈ marks, c ∉ cs

theorem before_append {c : Char} {cs rest : List Char} (h : c ∉ cs) :
    before c (cs ++ c :: rest) = cs := by
  have hpass : ∀ x ∈ cs, decide (x ≠ c) = true := by
    intro x hx
    exact decide_eq_true (ne_of_mem_of_not_mem hx h)
  rw [before, List.takeWhile_append_of_pos hpass, List.takeWhile_cons_of_neg (by simp),
    List.append_nil]

theorem behind_append {c : Char} {cs rest : List Char} (h : c ∉ cs) :
    behind c (cs ++ c :: rest) = rest := by
  have hpass : ∀ x ∈ cs, decide (x ≠ c) = true := by
    intro x hx
    exact decide_eq_true (ne_of_mem_of_not_mem hx h)
  rw [behind, List.dropWhile_append_of_pos hpass, List.dropWhile_cons_of_neg (by simp),
    List.tail_cons]

/-- No mark is a character of names. -/
theorem undivided_of_plain {cs : List Char} (h : Plain cs) : Undivided cs := by
  have hmarks : ∀ c ∈ marks, isNameChar c = false := forall_mem_marks.mpr (by decide)
  exact ⟨h.ne_nil, fun c hmark => h.not_mem (hmarks c hmark)⟩

/-! ## Parameters -/

variable {p : Parameter} {m : Member}

/-- A parameter whose type and name are undivided. -/
structure UndividedParameter (p : Parameter) : Prop where
  type : Undivided p.type.canonicalName.toList
  name : Undivided p.name.toList

theorem toList_parameterText (p : Parameter) :
    (parameterText p).toList = p.type.canonicalName.toList ++ ' ' :: p.name.toList := by
  simp [parameterText]

theorem readParameter_text (h : UndividedParameter p) :
    readParameter (parameterText p).toList = p.type.canonicalName := by
  have hblank : ' ' ∉ p.type.canonicalName.toList := h.type.not_mem ' ' (by decide)
  rw [toList_parameterText]
  cases htype : p.type.canonicalName.toList with
  | nil => exact absurd htype h.type.ne_nil
  | cons c cs =>
    rw [htype] at hblank
    have hc : c ≠ ' ' := fun hc => hblank (hc ▸ List.mem_cons_self)
    rw [readParameter, List.cons_append, List.dropWhile_cons_of_neg (by simpa using hc),
      ← List.cons_append, before_append hblank, ← htype, String.ofList_toList]

/-- The blank that follows a comma does not count. -/
theorem readParameter_blank (cs : List Char) : readParameter (' ' :: cs) = readParameter cs := by
  rw [readParameter, List.dropWhile_cons_of_pos (by simp), readParameter]

/-- The only mark in the text of a parameter is the blank in its middle. -/
theorem not_mem_parameterText (h : UndividedParameter p) {c : Char} (hmark : c ∈ marks)
    (hblank : c ≠ ' ') : c ∉ (parameterText p).toList := by
  rw [toList_parameterText]
  intro hmem
  rcases List.mem_append.mp hmem with hmem | hmem
  · exact h.type.not_mem c hmark hmem
  · rcases List.mem_cons.mp hmem with heq | hmem
    · exact hblank heq
    · exact h.name.not_mem c hmark hmem

theorem toList_parameterList (ps : List Parameter) :
    (parameterList ps).toList
      = [',', ' '].intercalate (ps.map fun p => (parameterText p).toList) := by
  simp [parameterList, Function.comp_def]

theorem not_mem_intercalate {c : Char} {separator : List Char} (hseparator : c ∉ separator)
    {items : List (List Char)} (h : ∀ item ∈ items, c ∉ item) :
    c ∉ separator.intercalate items := by
  induction items with
  | nil => exact List.not_mem_nil
  | cons item items ih =>
    rw [List.forall_mem_cons] at h
    by_cases hitems : items = []
    · rw [hitems, List.intercalate_singleton]
      exact h.1
    · rw [List.intercalate_cons_of_ne_nil hitems]
      simp [h.1, hseparator, ih h.2]

/-- No parenthesis closes before the parameters end. -/
theorem not_mem_parameterList {ps : List Parameter} (h : ∀ p ∈ ps, UndividedParameter p) :
    ')' ∉ (parameterList ps).toList := by
  rw [toList_parameterList]
  refine not_mem_intercalate (by decide) (List.forall_mem_map.mpr fun p hp => ?_)
  exact not_mem_parameterText (h p hp) (by decide) (by decide)

/-- A list of texts falls apart at its commas. Each but the first keeps the blank in front of it. -/
theorem splitOn_intercalate {first : List Char} {later : List (List Char)} (hfirst : ',' ∉ first)
    (hlater : ∀ cs ∈ later, ',' ∉ cs) :
    ([',', ' '].intercalate (first :: later)).splitOn ',' = first :: later.map (' ' :: ·) := by
  induction later generalizing first with
  | nil =>
    rw [List.intercalate_singleton]
    exact List.splitOnP_eq_singleton fun x hx => beq_false_of_ne (ne_of_mem_of_not_mem hx hfirst)
  | cons second later ih =>
    obtain ⟨hsecond, hlater⟩ := List.forall_mem_cons.mp hlater
    have hshape : [',', ' '].intercalate (first :: second :: later)
        = first ++ ',' :: [',', ' '].intercalate ((' ' :: second) :: later) := by
      cases later <;> simp [List.intercalate_cons_cons]
    rw [hshape, List.splitOn, List.splitOnP_append_cons_of_forall_mem
      (fun x hx => beq_false_of_ne (ne_of_mem_of_not_mem hx hfirst)) ',' (by simp)]
    have hblank : ',' ∉ ' ' :: second := by simpa using hsecond
    exact congrArg (first :: ·) (ih hblank hlater)

/-- The parameter types are read off the text between the parentheses. -/
theorem readParameters_parameterList {ps : List Parameter} (h : ∀ p ∈ ps, UndividedParameter p) :
    readParameters (parameterList ps).toList = ps.map (·.type.canonicalName) := by
  cases ps with
  | nil => rfl
  | cons p ps =>
    obtain ⟨hp, hps⟩ := List.forall_mem_cons.mp h
    have hlist : (parameterList (p :: ps)).toList
        = [',', ' '].intercalate ((parameterText p).toList
            :: ps.map fun q => (parameterText q).toList) := toList_parameterList (p :: ps)
    have hne : ¬ (parameterList (p :: ps)).toList.isEmpty = true := by
      rw [hlist]
      cases ps <;> simp [toList_parameterText, List.intercalate_cons_cons]
    have hlater : ∀ cs ∈ ps.map fun q => (parameterText q).toList, ',' ∉ cs := by
      rintro cs hcs
      obtain ⟨q, hq, rfl⟩ := List.mem_map.mp hcs
      exact not_mem_parameterText (hps q hq) (by decide) (by decide)
    have hfirst : ',' ∉ (parameterText p).toList :=
      not_mem_parameterText hp (by decide) (by decide)
    rw [readParameters, if_neg hne, hlist, splitOn_intercalate hfirst hlater,
      List.map_cons, List.map_cons, readParameter_text hp, List.map_map, List.map_map]
    refine congrArg _ (List.map_congr_left fun q hq => ?_)
    show readParameter (' ' :: (parameterText q).toList) = _
    rw [readParameter_blank, readParameter_text (hps q hq)]

/-! ## Signatures -/

theorem toList_signature (m : Member) :
    (signature m).toList = "public".toList ++ ' ' :: (m.returns.canonicalName.toList ++ ' ' ::
      (m.name.toList ++ '(' :: ((parameterList m.parameters).toList ++ ')' ::
        (throwsClause m.exceptions).toList))) := by
  simp only [signature, String.toList_append, List.append_assoc]
  rfl

/-- **Of a legal member, the name and the full names of the parameter types are read.** -/
theorem readHead_signature (hm : LegalMember m) : readHead (signature m) = Head.ofKey m.key := by
  obtain ⟨hreturns, hparameters, -⟩ := Member.forall_mem_types.mp hm.types
  have hreturns : Undivided m.returns.canonicalName.toList :=
    undivided_of_plain (plain_of_legal hreturns)
  have hname : Undivided m.name.toList := undivided_of_plain (plain_of_isIdentifier hm.name)
  have hps : ∀ p ∈ m.parameters, UndividedParameter p := fun p hp =>
    ⟨undivided_of_plain (plain_of_legal (hparameters p hp)),
      undivided_of_plain (plain_of_isIdentifier (hm.parameterNames p hp))⟩
  rw [head_ofKey_key, readHead, toList_signature, behind_append (by decide),
    behind_append (hreturns.not_mem ' ' (by decide)),
    before_append (hname.not_mem '(' (by decide)),
    behind_append (hname.not_mem '(' (by decide)),
    before_append (not_mem_parameterList hps), readParameters_parameterList hps,
    String.ofList_toList]

example : readHead (signature {
      name := "draw"
      returns := .primitive .void
      parameters := [⟨"part", .reference "a.Shape$Part"⟩, ⟨"bounds", .array (.primitive .int)⟩]
      exceptions := [.reference "a.Failure"] })
    = ⟨"draw", ["a.Shape.Part", "int[]"]⟩ := by decide +kernel

end Stub
end Stubwright
